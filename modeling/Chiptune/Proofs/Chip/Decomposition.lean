import Chiptune.Proofs.Chip.Signals

/-!
# Chip — Decomposition

The chip is four voices that hear of nothing but their own bytes and the clock, and the noise that
also reads the period of tone 2 now and then.

* `decomposition`: every voice goes where it goes alone, so two runs that look alike to a voice
  (`Alike`) leave it in one state.  The noise needs runs that look alike to tone 2 as well, or just
  runs in which it borrows the same periods from it (`borrowed`).

Two runs look alike to a voice if the latch routes the same bytes to it at the same cycles.  What
the voice is told then follows from what is left of the steps without the bytes for other voices
(`seenBy`, `told_eq_signals_seenBy`), and those positions determine (`eq_of_bytesAt_eq`).
-/

namespace Chiptune

namespace ChipStep

/-- The steps without the bytes that the latch routes elsewhere than to a voice. -/
def seenBy (v : Voice) : Target → List ChipStep → List ChipStep
  | _, [] => []
  | latch, .write byte :: rest =>
    if (latch.after byte).voice = v then .write byte :: seenBy v (latch.after byte) rest
    else seenBy v (latch.after byte) rest
  | latch, .cycle :: rest => .cycle :: seenBy v latch rest

/-- The bytes among some steps, each with the number of cycles up to it. -/
def bytesAt : Nat → List ChipStep → List (Nat × UInt8)
  | _, [] => []
  | now, .write byte :: rest => (now, byte) :: bytesAt now rest
  | now, .cycle :: rest => bytesAt (now + 1) rest

/-! ### Steps by position -/

theorem le_of_mem_bytesAt {now : Nat} {steps : List ChipStep} {p : Nat × UInt8}
    (h : p ∈ bytesAt now steps) : now ≤ p.1 := by
  induction steps generalizing now with
  | nil => cases h
  | cons s rest ih =>
      cases s with
      | write byte =>
          rcases List.mem_cons.mp h with rfl | h
          · exact Nat.le_refl now
          · exact ih h
      | cycle => exact Nat.le_of_succ_le (ih h)

/-- A byte at the present cycle is not among the bytes of later cycles. -/
theorem bytesAt_ne_cons {now : Nat} {byte : UInt8} {rest : List ChipStep}
    {bytes : List (Nat × UInt8)} : bytesAt (now + 1) rest ≠ (now, byte) :: bytes := by
  intro h
  have hmem : (now, byte) ∈ bytesAt (now + 1) rest := h ▸ List.mem_cons_self
  exact Nat.not_succ_le_self now (le_of_mem_bytesAt hmem)

/-- The positions of the bytes and the number of cycles determine the steps. -/
theorem eq_of_bytesAt_eq {now : Nat} {steps steps' : List ChipStep}
    (hbytes : bytesAt now steps = bytesAt now steps')
    (hcycles : steps.count .cycle = steps'.count .cycle) : steps = steps' := by
  induction steps generalizing now steps' with
  | nil =>
      rcases steps' with _ | ⟨_ | _, rest'⟩
      · rfl
      · cases hbytes
      -- a cycle more on one side
      · rw [List.count_cons_self] at hcycles
        cases hcycles
  | cons s rest ih =>
      cases s with
      | write byte =>
          rcases steps' with _ | ⟨byte' | _, rest'⟩
          · cases hbytes
          · obtain ⟨hhead, htail⟩ := List.cons.inj hbytes
            obtain rfl : byte = byte' := congrArg Prod.snd hhead
            exact congrArg (_ :: ·) (ih htail hcycles)
          -- a byte now on one side, later on the other
          · exact absurd hbytes.symm bytesAt_ne_cons
      | cycle =>
          rw [List.count_cons_self] at hcycles
          rcases steps' with _ | ⟨byte' | _, rest'⟩
          · cases hcycles
          · exact absurd hbytes bytesAt_ne_cons
          · rw [List.count_cons_self] at hcycles
            exact congrArg (_ :: ·) (ih hbytes (Nat.succ.inj hcycles))

theorem count_cycle_seenBy (v : Voice) (latch : Target) (steps : List ChipStep) :
    (seenBy v latch steps).count .cycle = steps.count .cycle := by
  induction steps generalizing latch with
  | nil => rfl
  | cons s rest ih =>
      cases s with
      | write byte =>
          rw [seenBy]
          split
          · exact ih _
          · exact ih _
      | cycle => rw [seenBy, List.count_cons_self, List.count_cons_self, ih]

theorem count_cycle_steps (events : List DeviceEvent) :
    (events.flatMap DeviceEvent.steps).count .cycle = (events.map DeviceEvent.cycles).sum := by
  induction events with
  | nil => rfl
  | cons e rest ih =>
      rw [List.flatMap_cons, List.count_append, ih, List.map_cons, List.sum_cons]
      cases e with
      | write byte => rfl
      | advance n => exact congrArg (· + _) List.count_replicate_self

end ChipStep

/-! ### What a voice is told follows from what it sees -/

theorem Target.after_eq {latch : Target} {v : Voice} {r : Register} {byte : UInt8}
    (hr : latch.voice = v → latch.register = r) (h : (latch.after byte).voice = v) :
    Target.after ⟨v, r⟩ byte = latch.after byte := by
  unfold Target.after at h ⊢
  cases hdecode : BusWrite.decode byte with
  | latch target data => rfl
  | data data =>
      rw [hdecode] at h
      obtain rfl : latch.voice = v := h
      obtain rfl : latch.register = r := hr rfl
      rfl

/-- What a voice is told does not depend on the bytes for others: a latch that always points to the
voice, and at first to the register the real latch may hold for it, tells it the same. -/
theorem signals_seenBy {v : Voice} {latch : Target} {r : Register} (divider : Nat)
    (steps : List ChipStep) (hr : latch.voice = v → latch.register = r) :
    signals v ⟨v, r⟩ divider (ChipStep.seenBy v latch steps) = signals v latch divider steps := by
  induction steps generalizing latch r divider with
  | nil => rfl
  | cons s rest ih =>
      cases s with
      | write byte =>
          rw [ChipStep.seenBy, signals]
          by_cases h : (latch.after byte).voice = v
          -- from here on both latches are the same
          · have hsame : (⟨v, (latch.after byte).register⟩ : Target) = latch.after byte := by
              rw [← h]
            have htail : signals v ⟨v, (latch.after byte).register⟩ divider
                (ChipStep.seenBy v (latch.after byte) rest) =
                signals v (latch.after byte) divider rest := ih divider fun _ => rfl
            rw [hsame] at htail
            simp only [h, if_true]
            rw [signals, Target.after_eq hr h]
            simp only [h, if_true, htail]
          · simp only [h, if_false]
            exact ih divider fun hv => absurd hv h
      | cycle =>
          rw [ChipStep.seenBy, signals, signals, ih prescale hr, ih (divider - 1) hr]

/-! ### What the noise borrows from tone 2 -/

namespace Noise

/-- The period read from a tone 2 at a clock: the noise reads it when its counter runs out while
its rate is that of tone 2. -/
def borrows (n : Noise) (tone2 : Tone) : List Nat :=
  if n.counter ≤ 1 ∧ n.rate = .tone2 then [tone2.period] else []

/-- The periods read from tone 2 along some signals, the clock number `k` showing `tone2 k`. -/
def borrowed (n : Noise) (tone2 : Nat → Tone) : List VoiceSignal → List Nat
  | [] => []
  | .write register _ data :: rest => (n.write register data).borrowed tone2 rest
  | .clock :: rest =>
    n.borrows (tone2 0) ++ (n.clock (tone2 0).period).borrowed (fun k => tone2 (k + 1)) rest

theorem length_borrows (n : Noise) (tone2 tone2' : Tone) :
    (n.borrows tone2).length = (n.borrows tone2').length := by
  unfold borrows
  split <;> rfl

/-- A clock that reads the same does the same. -/
theorem clock_eq_of_borrows_eq {n : Noise} {tone2 tone2' : Tone}
    (h : n.borrows tone2 = n.borrows tone2') : n.clock tone2.period = n.clock tone2'.period := by
  unfold clock
  by_cases hcounter : n.counter ≤ 1
  · rw [if_pos hcounter, if_pos hcounter]
    unfold nextPeriod
    cases hrate : n.rate with
    | high | medium | low => rfl
    | tone2 =>
        rw [borrows, borrows, if_pos ⟨hcounter, hrate⟩, if_pos ⟨hcounter, hrate⟩] at h
        have hperiod : tone2.period = tone2'.period := List.head_eq_of_cons_eq h
        rw [hperiod]
  · rw [if_neg hcounter, if_neg hcounter]

/-- The noise goes the same way along the same signals if it reads the same periods. -/
theorem receiveAll_eq_of_borrowed_eq {n : Noise} {tone2 tone2' : Nat → Tone}
    {signals : List VoiceSignal} (h : n.borrowed tone2 signals = n.borrowed tone2' signals) :
    n.receiveAll tone2 signals = n.receiveAll tone2' signals := by
  induction signals generalizing n tone2 tone2' with
  | nil => rfl
  | cons s rest ih =>
      cases s with
      | write register width data => exact ih h
      | clock =>
          rw [borrowed, borrowed] at h
          -- whether a clock reads the period does not depend on tone 2
          obtain ⟨hnow, hlater⟩ := List.append_inj h (n.length_borrows _ _)
          have hclock := clock_eq_of_borrows_eq hnow
          rw [hclock] at hlater
          rw [receiveAll, receiveAll, hclock]
          exact ih hlater

end Noise

namespace Chip

/-- The period the noise reads from tone 2 in a step of the chip. -/
def borrows (c : Chip) : ChipStep → List Nat
  | .write _ => []
  | .cycle =>
    if c.divider ≤ 1 ∧ c.noise.counter ≤ 1 ∧ c.noise.rate = .tone2 then [c.tone2.period] else []

/-- The periods the noise reads from tone 2 along some steps of the chip. -/
def borrowed (c : Chip) : List ChipStep → List Nat
  | [] => []
  | s :: rest => c.borrows s ++ (c.step s).borrowed rest

/-- The noise of the chip reads what it reads alone beside the lone tone 2. -/
theorem borrowed_eq (c : Chip) (steps : List ChipStep) :
    c.borrowed steps = c.noise.borrowed (c.loneTone2 steps) (c.told .noise steps) := by
  induction steps generalizing c with
  | nil => rfl
  | cons s rest ih =>
      rw [borrowed, ih]
      cases s with
      | write byte =>
          rw [borrows, step, List.nil_append, loneTone2_write]
          rcases c.noise_write_cases byte rest with ⟨r, w, d, htold, hnoise⟩ | ⟨htold, hnoise⟩
          · rw [htold, hnoise, Noise.borrowed]
          · rw [htold, hnoise]
      | cycle =>
          rw [borrows, step]
          by_cases h : c.divider ≤ 1
          · obtain ⟨hnow, hlater⟩ : c.loneTone2 (.cycle :: rest) 0 = c.tone2.clock ∧ _ :=
              loneTone2_cycle_of_le h
            rw [told_cycle_of_le h, noise_cycle_of_le h, Noise.borrowed, hnow, hlater,
              Noise.borrows, Tone.period_clock]
            simp only [h, true_and]
          · rw [told_cycle_of_not_le h, noise_cycle_of_not_le h, loneTone2_cycle_of_not_le h,
              if_neg fun hall => h hall.1, List.nil_append]

/-! ### Runs that look alike to a voice -/

/-- The bytes of a record that the latch routes to a voice, each with the number of cycles up to
it. -/
def routed (c : Chip) (v : Voice) (events : List DeviceEvent) : List (Nat × UInt8) :=
  ChipStep.bytesAt 0 (ChipStep.seenBy v c.latch (events.flatMap DeviceEvent.steps))

/-- Two runs look alike to a voice: channel clocks fall on the same cycles, and the same bytes are
routed to the voice at the same cycles.  What the latches hold at first matters only if both point
to the voice. -/
structure Alike (v : Voice) (c : Chip) (events : List DeviceEvent) (c' : Chip)
    (events' : List DeviceEvent) : Prop where
  divider : c'.divider = c.divider
  register : c.latch.voice = v → c'.latch.voice = v → c'.latch.register = c.latch.register
  cycles : (events'.map DeviceEvent.cycles).sum = (events.map DeviceEvent.cycles).sum
  routed : c'.routed v events' = c.routed v events

/-- A voice is told the same in runs that look alike to it. -/
theorem Alike.told_eq {v : Voice} {c c' : Chip} {events events' : List DeviceEvent}
    (h : Alike v c events c' events') :
    c'.told v (events'.flatMap DeviceEvent.steps) = c.told v (events.flatMap DeviceEvent.steps) := by
  have hseen : ChipStep.seenBy v c'.latch (events'.flatMap DeviceEvent.steps) =
      ChipStep.seenBy v c.latch (events.flatMap DeviceEvent.steps) := by
    refine ChipStep.eq_of_bytesAt_eq h.routed ?_
    rw [ChipStep.count_cycle_seenBy, ChipStep.count_cycle_seenBy, ChipStep.count_cycle_steps,
      ChipStep.count_cycle_steps, h.cycles]
  -- a register that both latches hold for the voice, as far as they point to it
  obtain ⟨r, hr, hr'⟩ : ∃ r, (c.latch.voice = v → c.latch.register = r) ∧
      (c'.latch.voice = v → c'.latch.register = r) := by
    by_cases hv : c.latch.voice = v
    · exact ⟨c.latch.register, fun _ => rfl, h.register hv⟩
    · exact ⟨c'.latch.register, fun hv' => absurd hv' hv, fun _ => rfl⟩
  rw [told, told, ← signals_seenBy c'.divider _ hr', ← signals_seenBy c.divider _ hr, hseen,
    h.divider]

/-- **The chip is four voices.**  Whatever is written and however time passes, a tone ends where it
ends alone on the bytes the latch routes to it and the channel clocks, and the noise where it ends
alone on its own, each clock showing it the lone tone 2 after that clock.  So two runs that look
alike to a tone leave the same tone.  Two runs that look alike to the noise leave the same noise if
they look alike to tone 2, or if only the periods agree that the noise reads from tone 2 when its
counter runs out at the rate of tone 2. -/
theorem decomposition (c : Chip) (events : List DeviceEvent) :
    let steps := events.flatMap DeviceEvent.steps
    let after := DeviceEvent.replayAll c events
    (∀ i, after.tone i = (c.tone i).receiveAll (c.told (.ofTone i) steps)) ∧
    after.noise =
      c.noise.receiveAll (c.tone2.atClock (c.told .tone2 steps)) (c.told .noise steps) ∧
    ∀ (c' : Chip) (events' : List DeviceEvent),
      let steps' := events'.flatMap DeviceEvent.steps
      let after' := DeviceEvent.replayAll c' events'
      (∀ i, c'.tone i = c.tone i → Alike (.ofTone i) c events c' events' →
        after'.tone i = after.tone i) ∧
      (c'.noise = c.noise → Alike .noise c events c' events' →
        (c'.tone2 = c.tone2 → Alike .tone2 c events c' events' → after'.noise = after.noise) ∧
        (c'.borrowed steps' = c.borrowed steps → after'.noise = after.noise)) := by
  intro steps after
  have htone : ∀ (c : Chip) (events : List DeviceEvent) (i : Fin 3),
      (DeviceEvent.replayAll c events).tone i =
        (c.tone i).receiveAll (c.told (.ofTone i) (events.flatMap DeviceEvent.steps)) :=
    fun c events i => by rw [replayAll_eq_stepAll, tone_stepAll]
  have hnoise : ∀ (c : Chip) (events : List DeviceEvent),
      (DeviceEvent.replayAll c events).noise =
        c.noise.receiveAll (c.loneTone2 (events.flatMap DeviceEvent.steps))
          (c.told .noise (events.flatMap DeviceEvent.steps)) :=
    fun c events => by rw [replayAll_eq_stepAll, noise_stepAll]
  refine ⟨htone c events, hnoise c events, fun c' events' => ⟨fun i hsame halike => ?_,
    fun hsame halike => ⟨fun hsame2 halike2 => ?_, fun hborrowed => ?_⟩⟩⟩
  · rw [htone, htone, hsame, halike.told_eq]
  · rw [hnoise, hnoise, hsame, halike.told_eq, loneTone2, loneTone2, hsame2, halike2.told_eq]
  · rw [hnoise, hnoise, hsame, halike.told_eq]
    rw [borrowed_eq, borrowed_eq, hsame, halike.told_eq] at hborrowed
    exact Noise.receiveAll_eq_of_borrowed_eq hborrowed

/-- A noise about to run out at the rate of tone 2.  Bytes for tone 0 reach neither tone 2 nor the
noise, and the volume of tone 2 does not reach the noise, which reads the period 8 once. -/
theorem decomposition_at_rate_of_tone2 :
    let c : Chip :=
      { powerOn with divider := 1, noise := { Noise.powerOn with counter := 1, rate := .tone2 } }
    let events : List DeviceEvent := [.write 0xC8, .advance 17]
    let events0 : List DeviceEvent := [.write 0x85, .write 0xC8, .write 0x93, .advance 2, .advance 15]
    let events2 : List DeviceEvent := [.write 0xC8, .advance 3, .write 0xD0, .advance 14]
    c.borrowed (events.flatMap DeviceEvent.steps) = [8] ∧
      (DeviceEvent.replayAll c events0).tone 2 = (DeviceEvent.replayAll c events).tone 2 ∧
      (DeviceEvent.replayAll c events0).noise = (DeviceEvent.replayAll c events).noise ∧
      (DeviceEvent.replayAll c events2).noise = (DeviceEvent.replayAll c events).noise := by
  intro c events events0 events2
  have halike : ∀ v ∈ [Voice.noise, Voice.ofTone 2], Alike v c events c events0 := by
    intro v hv
    refine ⟨rfl, fun _ _ => rfl, rfl, ?_⟩
    revert v
    decide
  have halike2 : Alike .noise c events c events2 := ⟨rfl, fun _ _ => rfl, rfl, by decide⟩
  obtain ⟨-, -, hruns⟩ := decomposition c events
  obtain ⟨htone, hnoise⟩ := hruns c events0
  refine ⟨by decide, ?_, ?_, ?_⟩
  · exact htone 2 rfl (halike _ (by decide))
  · exact (hnoise rfl (halike _ (by decide))).1 rfl (halike (.ofTone 2) (by decide))
  · exact ((hruns c events2).2 rfl halike2).2 (by decide)

end Chip

end Chiptune
