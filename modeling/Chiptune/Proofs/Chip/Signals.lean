import Chiptune.Proofs.Device.Calls

/-!
# Chip — Signals

What each voice gets to know of what happens to the chip.  A voice is told of the bytes the latch
routes to it, taken apart, and of the channel clocks; it is told neither of the other bytes nor of
the cycles in between (`signals`).  A voice that stands alone and gets its signals one by one ends
where the voice in the chip ends:

* `tone_stepAll`: so does every tone;
* `noise_stepAll`: so does the noise, if each of its clocks shows it the lone tone 2 as the same
  clock leaves that tone.

A record is cut into single writes and single cycles first (`ChipStep`), so that both are inductions
on a list with one kind of step in each case.
-/

namespace Chiptune

/-! ### Where a byte goes -/

/-- The voice of a tone. -/
def Voice.ofTone : Fin 3 → Voice
  | 0 => .tone0
  | 1 => .tone1
  | 2 => .tone2

/-- The latch once a byte is on the bus, which is also where that byte goes. -/
def Target.after (latch : Target) (byte : UInt8) : Target :=
  match BusWrite.decode byte with
  | .latch target _ => target
  | .data _ => latch

/-- What a voice is told. -/
inductive VoiceSignal where
  | write (register : Register) (width : Width) (data : Nat)
  | clock
  deriving DecidableEq

/-- What a voice is told of a byte that goes to one of its registers. -/
def VoiceSignal.ofByte (register : Register) (byte : UInt8) : VoiceSignal :=
  match BusWrite.decode byte with
  | .latch _ data => .write register .narrow data
  | .data data => .write register .wide data

/-! ### Steps of the chip -/

/-- A single thing that happens to the chip. -/
inductive ChipStep where
  | write (byte : UInt8)
  | cycle
  deriving DecidableEq

/-- An event, step by step. -/
def DeviceEvent.steps : DeviceEvent → List ChipStep
  | .write byte => [.write byte]
  | .advance cycles => List.replicate cycles .cycle

/-- What a voice is told along some steps, while the latch and the divider stand as given. -/
def signals (v : Voice) : Target → Nat → List ChipStep → List VoiceSignal
  | _, _, [] => []
  | latch, divider, .write byte :: rest =>
    let target := latch.after byte
    if target.voice = v then .ofByte target.register byte :: signals v target divider rest
    else signals v target divider rest
  | latch, divider, .cycle :: rest =>
    if divider ≤ 1 then .clock :: signals v latch prescale rest
    else signals v latch (divider - 1) rest

namespace Chip

/-- One step of the chip. -/
def step (c : Chip) : ChipStep → Chip
  | .write byte => c.write byte
  | .cycle => c.cycle

/-- Steps of the chip, first to last. -/
def stepAll (c : Chip) (steps : List ChipStep) : Chip :=
  steps.foldl step c

theorem stepAll_append (c : Chip) (first second : List ChipStep) :
    c.stepAll (first ++ second) = (c.stepAll first).stepAll second :=
  List.foldl_append

theorem stepAll_replicate_cycle (c : Chip) (n : Nat) :
    c.stepAll (List.replicate n .cycle) = c.advance n := by
  induction n generalizing c with
  | zero => rfl
  | succ n ih => exact ih c.cycle

/-- Replaying a record takes its steps. -/
theorem replayAll_eq_stepAll (c : Chip) (events : List DeviceEvent) :
    DeviceEvent.replayAll c events = c.stepAll (events.flatMap DeviceEvent.steps) := by
  induction events generalizing c with
  | nil => rfl
  | cons e rest ih =>
      rw [List.flatMap_cons, stepAll_append]
      refine (ih _).trans (congrArg (Chip.stepAll · _) ?_)
      cases e with
      | write byte => rfl
      | advance n => exact (c.stepAll_replicate_cycle n).symm

/-! ### What a step does to a voice -/

variable (c : Chip) (byte : UInt8) (i : Fin 3)

theorem write_eq_writeTo : ∃ width data,
    VoiceSignal.ofByte (c.latch.after byte).register byte =
      .write (c.latch.after byte).register width data ∧
    c.write byte = { c with latch := c.latch.after byte }.writeTo (c.latch.after byte) width data := by
  unfold write Target.after VoiceSignal.ofByte
  cases BusWrite.decode byte with
  | latch target data => exact ⟨.narrow, data, rfl, rfl⟩
  | data data => exact ⟨.wide, data, rfl, rfl⟩

theorem latch_writeTo (t : Target) (w : Width) (d : Nat) : (c.writeTo t w d).latch = c.latch := by
  unfold writeTo
  cases t.voice <;> rfl

theorem divider_writeTo (t : Target) (w : Width) (d : Nat) :
    (c.writeTo t w d).divider = c.divider := by
  unfold writeTo
  cases t.voice <;> rfl

theorem latch_write : (c.write byte).latch = c.latch.after byte := by
  obtain ⟨width, data, -, hwrite⟩ := c.write_eq_writeTo byte
  rw [hwrite, latch_writeTo]

theorem divider_write : (c.write byte).divider = c.divider := by
  obtain ⟨width, data, -, hwrite⟩ := c.write_eq_writeTo byte
  rw [hwrite, divider_writeTo]

theorem latch_cycle : c.cycle.latch = c.latch := by
  unfold cycle
  split <;> rfl

variable {c byte i}

theorem tone_writeTo_of_eq {t : Target} (h : t.voice = .ofTone i) (w : Width) (d : Nat) :
    (c.writeTo t w d).tone i = (c.tone i).write t.register w d := by
  unfold writeTo
  rw [h]
  match i with
  | 0 => rfl
  | 1 => rfl
  | 2 => rfl

theorem tone_writeTo_of_ne {t : Target} (h : t.voice ≠ .ofTone i) (w : Width) (d : Nat) :
    (c.writeTo t w d).tone i = c.tone i := by
  unfold writeTo
  cases hv : t.voice with
  | noise => rfl
  | tone0 => exact match i with
      | 0 => absurd hv h
      | 1 => rfl
      | 2 => rfl
  | tone1 => exact match i with
      | 0 => rfl
      | 1 => absurd hv h
      | 2 => rfl
  | tone2 => exact match i with
      | 0 => rfl
      | 1 => rfl
      | 2 => absurd hv h

theorem noise_writeTo_of_eq {t : Target} (h : t.voice = .noise) (w : Width) (d : Nat) :
    (c.writeTo t w d).noise = c.noise.write t.register d := by
  unfold writeTo
  rw [h]

theorem noise_writeTo_of_ne {t : Target} (h : t.voice ≠ .noise) (w : Width) (d : Nat) :
    (c.writeTo t w d).noise = c.noise := by
  unfold writeTo
  cases hv : t.voice with
  | tone0 | tone1 | tone2 => rfl
  | noise => exact absurd hv h

theorem cycle_of_le (h : c.divider ≤ 1) : c.cycle = { c.clockVoices with divider := prescale } :=
  if_pos h

theorem cycle_of_not_le (h : ¬ c.divider ≤ 1) : c.cycle = { c with divider := c.divider - 1 } :=
  if_neg h

theorem tone_clockVoices : c.clockVoices.tone i = (c.tone i).clock :=
  match i with
  | 0 => rfl
  | 1 => rfl
  | 2 => rfl

end Chip

/-! ### Voices that stand alone -/

namespace Tone

/-- A tone that gets a signal. -/
def receive (t : Tone) : VoiceSignal → Tone
  | .write register width data => t.write register width data
  | .clock => t.clock

/-- A tone that gets signals, first to last. -/
def receiveAll (t : Tone) (signals : List VoiceSignal) : Tone :=
  signals.foldl receive t

/-- A tone as the clock number `k` among some signals leaves it; the first clock is number 0. -/
def atClock (t : Tone) : List VoiceSignal → Nat → Tone
  | [], _ => t
  | .write register width data :: rest, k => (t.write register width data).atClock rest k
  | .clock :: _, 0 => t.clock
  | .clock :: rest, k + 1 => t.clock.atClock rest k

end Tone

namespace Noise

/-- A noise voice that gets signals, first to last; the clock number `k` among them shows it the
tone `tone2 k`. -/
def receiveAll (n : Noise) (tone2 : Nat → Tone) : List VoiceSignal → Noise
  | [] => n
  | .write register _ data :: rest => (n.write register data).receiveAll tone2 rest
  | .clock :: rest => (n.clock (tone2 0).period).receiveAll (fun k => tone2 (k + 1)) rest

end Noise

namespace Chip

variable {c : Chip} {byte : UInt8} {i : Fin 3}

theorem tone_write_of_eq (h : (c.latch.after byte).voice = .ofTone i) :
    (c.write byte).tone i =
      (c.tone i).receive (.ofByte (c.latch.after byte).register byte) := by
  obtain ⟨width, data, hsignal, hwrite⟩ := c.write_eq_writeTo byte
  rw [hwrite, hsignal, tone_writeTo_of_eq h]
  rfl

theorem tone_write_of_ne (h : (c.latch.after byte).voice ≠ .ofTone i) :
    (c.write byte).tone i = c.tone i := by
  obtain ⟨width, data, -, hwrite⟩ := c.write_eq_writeTo byte
  rw [hwrite, tone_writeTo_of_ne h]
  rfl

theorem noise_write_of_ne (h : (c.latch.after byte).voice ≠ .noise) :
    (c.write byte).noise = c.noise := by
  obtain ⟨width, data, -, hwrite⟩ := c.write_eq_writeTo byte
  rw [hwrite, noise_writeTo_of_ne h]

theorem tone_cycle_of_le (h : c.divider ≤ 1) : c.cycle.tone i = (c.tone i).clock := by
  rw [cycle_of_le h]
  exact tone_clockVoices

theorem tone_cycle_of_not_le (h : ¬ c.divider ≤ 1) : c.cycle.tone i = c.tone i := by
  rw [cycle_of_not_le h]
  rfl

/-! ### What a voice is told -/

/-- What a voice is told along some steps of the chip. -/
def told (c : Chip) (v : Voice) (steps : List ChipStep) : List VoiceSignal :=
  signals v c.latch c.divider steps

variable {v : Voice} {rest : List ChipStep}

theorem told_write_of_eq (h : (c.latch.after byte).voice = v) :
    c.told v (.write byte :: rest) =
      .ofByte (c.latch.after byte).register byte :: (c.write byte).told v rest := by
  rw [told, told, latch_write, divider_write]
  exact if_pos h

theorem told_write_of_ne (h : (c.latch.after byte).voice ≠ v) :
    c.told v (.write byte :: rest) = (c.write byte).told v rest := by
  rw [told, told, latch_write, divider_write]
  exact if_neg h

theorem told_cycle_of_le (h : c.divider ≤ 1) :
    c.told v (.cycle :: rest) = .clock :: c.cycle.told v rest := by
  rw [told, told, latch_cycle, cycle_of_le h]
  exact if_pos h

theorem told_cycle_of_not_le (h : ¬ c.divider ≤ 1) :
    c.told v (.cycle :: rest) = c.cycle.told v rest := by
  rw [told, told, latch_cycle, cycle_of_not_le h]
  exact if_neg h

/-- **A tone stands alone.**  Along any steps of the chip, a tone goes where the same tone goes
alone on its signals. -/
theorem tone_stepAll (c : Chip) (i : Fin 3) (steps : List ChipStep) :
    (c.stepAll steps).tone i = (c.tone i).receiveAll (c.told (.ofTone i) steps) := by
  -- for every chip: the latch and the divider behind the signals move along with it
  induction steps generalizing c with
  | nil => rfl
  | cons s rest ih =>
      cases s with
      | write byte =>
          refine (ih (c.write byte)).trans ?_
          by_cases h : (c.latch.after byte).voice = .ofTone i
          · rw [told_write_of_eq h, tone_write_of_eq h]
            rfl
          · rw [told_write_of_ne h, tone_write_of_ne h]
      | cycle =>
          refine (ih c.cycle).trans ?_
          by_cases h : c.divider ≤ 1
          · rw [told_cycle_of_le h, tone_cycle_of_le h]
            rfl
          · rw [told_cycle_of_not_le h, tone_cycle_of_not_le h]

/-! ### The noise beside the lone tone 2 -/

/-- The lone tone 2 at its clocks along some steps of the chip. -/
def loneTone2 (c : Chip) (steps : List ChipStep) : Nat → Tone :=
  c.tone2.atClock (c.told .tone2 steps)

theorem loneTone2_write : c.loneTone2 (.write byte :: rest) = (c.write byte).loneTone2 rest := by
  unfold loneTone2
  by_cases h : (c.latch.after byte).voice = .tone2
  · obtain ⟨width, data, hsignal, hwrite⟩ := c.write_eq_writeTo byte
    have htone : (c.write byte).tone2 = c.tone2.write (c.latch.after byte).register width data := by
      rw [hwrite]
      exact tone_writeTo_of_eq (i := 2) h width data
    rw [told_write_of_eq h, hsignal, htone]
    rfl
  · have htone : (c.write byte).tone2 = c.tone2 := tone_write_of_ne (i := 2) h
    rw [told_write_of_ne h, htone]

/-- A byte either goes to the noise, which is told of it, or the noise is told nothing. -/
theorem noise_write_cases (c : Chip) (byte : UInt8) (rest : List ChipStep) :
    (∃ register width data,
      c.told .noise (.write byte :: rest) =
        .write register width data :: (c.write byte).told .noise rest ∧
      (c.write byte).noise = c.noise.write register data) ∨
    (c.told .noise (.write byte :: rest) = (c.write byte).told .noise rest ∧
      (c.write byte).noise = c.noise) := by
  by_cases h : (c.latch.after byte).voice = .noise
  · obtain ⟨width, data, hsignal, hwrite⟩ := c.write_eq_writeTo byte
    refine .inl ⟨(c.latch.after byte).register, width, data, ?_, ?_⟩
    · rw [told_write_of_eq h, hsignal]
    · rw [hwrite, noise_writeTo_of_eq h]
  · exact .inr ⟨told_write_of_ne h, noise_write_of_ne h⟩

theorem loneTone2_cycle_of_le (h : c.divider ≤ 1) :
    c.loneTone2 (.cycle :: rest) 0 = c.tone2.clock ∧
      (fun k => c.loneTone2 (.cycle :: rest) (k + 1)) = c.cycle.loneTone2 rest := by
  have htone : c.cycle.tone2 = c.tone2.clock := tone_cycle_of_le (i := 2) h
  unfold loneTone2
  rw [told_cycle_of_le h, htone]
  exact ⟨rfl, rfl⟩

theorem loneTone2_cycle_of_not_le (h : ¬ c.divider ≤ 1) :
    c.loneTone2 (.cycle :: rest) = c.cycle.loneTone2 rest := by
  have htone : c.cycle.tone2 = c.tone2 := tone_cycle_of_not_le (i := 2) h
  unfold loneTone2
  rw [told_cycle_of_not_le h, htone]

theorem noise_cycle_of_le (h : c.divider ≤ 1) :
    c.cycle.noise = c.noise.clock c.tone2.clock.period := by
  rw [cycle_of_le h]
  rfl

theorem noise_cycle_of_not_le (h : ¬ c.divider ≤ 1) : c.cycle.noise = c.noise := by
  rw [cycle_of_not_le h]

/-- **The noise stands alone beside tone 2.**  Along any steps of the chip, the noise goes where the
same noise goes on its signals, if each of its clocks shows it the lone tone 2 after that clock. -/
theorem noise_stepAll (c : Chip) (steps : List ChipStep) :
    (c.stepAll steps).noise = c.noise.receiveAll (c.loneTone2 steps) (c.told .noise steps) := by
  induction steps generalizing c with
  | nil => rfl
  | cons s rest ih =>
      cases s with
      | write byte =>
          refine (ih (c.write byte)).trans ?_
          rw [loneTone2_write]
          rcases c.noise_write_cases byte rest with ⟨r, w, d, htold, hnoise⟩ | ⟨htold, hnoise⟩
          · rw [htold, hnoise, Noise.receiveAll]
          · rw [htold, hnoise]
      | cycle =>
          refine (ih c.cycle).trans ?_
          by_cases h : c.divider ≤ 1
          · obtain ⟨hnow, hlater⟩ : c.loneTone2 (.cycle :: rest) 0 = c.tone2.clock ∧ _ :=
              loneTone2_cycle_of_le h
            -- tone 2 is clocked before the noise, so the period shown is that after its clock
            rw [told_cycle_of_le h, noise_cycle_of_le h, Noise.receiveAll, hnow, hlater]
          · rw [told_cycle_of_not_le h, noise_cycle_of_not_le h, loneTone2_cycle_of_not_le h]

end Chip

end Chiptune
