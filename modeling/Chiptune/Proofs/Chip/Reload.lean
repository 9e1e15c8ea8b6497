import Chiptune.Proofs.Chip.Decomposition
import Chiptune.Proofs.Chip.Ranges
import Chiptune.Proofs.Chip.SquareWave

/-!
# Chip — Reload

A write never disturbs a running count.  It changes the registers of a voice at once, but the count
of the voice and its output look at no register before the count runs out.

Two runs of the same cycles are compared, one with bytes written in between and one without.

* `count_clock_told`: both tell a voice of the same channel clocks, and `divider_stepAll`: both
  leave the prescaler at the same place.
* `Tone.receiveAll_of_lt`, `Noise.receiveAll_of_lt`: a voice told of fewer clocks than its count has
  left counts them, and does nothing else that is not a register.
* `lazy_reload`: so both runs agree on every count and output until the clock with which a count
  runs out, and this is the same clock in both; what they start again from may then differ.
-/

namespace Chiptune

/-! ### The clocks of a stretch -/

theorem ChipStep.count_write_cons (byte : UInt8) (rest : List ChipStep) :
    (write byte :: rest).count .cycle = rest.count .cycle :=
  List.count_cons_of_ne (by nofun)

theorem VoiceSignal.count_write_cons (register : Register) (width : Width) (data : Nat)
    (rest : List VoiceSignal) :
    (write register width data :: rest).count .clock = rest.count .clock :=
  List.count_cons_of_ne (by nofun)

/-- The clocks a voice is told of do not depend on what is written between the cycles. -/
theorem count_clock_signals (v : Voice) (latch latch' : Target) (divider : Nat)
    (steps : List ChipStep) :
    (signals v latch divider steps).count .clock =
      (signals v latch' divider (List.replicate (steps.count .cycle) .cycle)).count .clock := by
  induction steps generalizing latch divider with
  | nil => rfl
  | cons s rest ih =>
      cases s with
      | write byte =>
          rw [ChipStep.count_write_cons, signals]
          split
          · rw [VoiceSignal.ofByte]
            split
            · rw [VoiceSignal.count_write_cons]
              exact ih _ _
            · rw [VoiceSignal.count_write_cons]
              exact ih _ _
          · exact ih _ _
      | cycle =>
          rw [List.count_cons_self, List.replicate_succ, signals, signals]
          split
          · rw [List.count_cons_self, List.count_cons_self, ih]
          · exact ih _ _

namespace Chip

variable {c : Chip} {steps : List ChipStep}

/-- A voice is told of every channel clock among some steps. -/
theorem count_clock_told (hc : c.InRange) (v : Voice) (steps : List ChipStep) :
    (c.told v steps).count .clock = c.clocksIn (steps.count .cycle) := by
  rw [told, count_clock_signals v c.latch c.latch,
    signals_replicate_cycle _ _ hc.divider_pos hc.divider_le, List.count_replicate_self]
  rfl

/-- Where the prescaler stands after some steps, whatever is written between the cycles. -/
theorem divider_stepAll (hc : c.InRange) (steps : List ChipStep) :
    (c.stepAll steps).divider =
      prescale - (prescale - c.divider + steps.count .cycle) % prescale := by
  induction steps generalizing c with
  | nil =>
      have hpos := hc.divider_pos
      have hle := hc.divider_le
      show c.divider = 16 - (16 - c.divider + 0) % 16
      omega
  | cons s rest ih =>
      cases s with
      | write byte =>
          have hrest := ih (hc.write byte)
          rw [divider_write] at hrest
          rw [ChipStep.count_write_cons]
          exact hrest
      | cycle =>
          have hpos := hc.divider_pos
          have hle := hc.divider_le
          have hnext : c.cycle.divider = if c.divider ≤ 1 then 16 else c.divider - 1 := by
            by_cases h : c.divider ≤ 1
            · rw [cycle_of_le h, if_pos h]
              rfl
            · rw [cycle_of_not_le h, if_neg h]
          rw [List.count_cons_self]
          refine (ih hc.cycle).trans ?_
          rw [hnext]
          show 16 - (16 - _ + _) % 16 = 16 - (16 - c.divider + _) % 16
          split <;> omega

end Chip

/-! ### A voice until its count runs out -/

/-- A tone told of fewer clocks than its count has left counts them down, and its output stays. -/
theorem Tone.receiveAll_of_lt {t : Tone} {signals : List VoiceSignal}
    (h : signals.count .clock < max t.counter 1) :
    (t.receiveAll signals).counter = t.counter - signals.count .clock ∧
      (t.receiveAll signals).phase = t.phase := by
  induction signals generalizing t with
  | nil => exact ⟨rfl, rfl⟩
  | cons s rest ih =>
      cases s with
      | write register width data =>
          rw [VoiceSignal.count_write_cons] at h ⊢
          obtain ⟨hcounter, hphase⟩ := ih (t := t.write register width data) (by rwa [counter_write])
          rw [counter_write] at hcounter
          rw [phase_write] at hphase
          exact ⟨hcounter, hphase⟩
      | clock =>
          rw [List.count_cons_self] at h ⊢
          have hclock : t.clock = { t with counter := t.counter - 1 } := if_neg (by omega)
          have hleft : t.clock.counter = t.counter - 1 := by rw [hclock]
          have hsame : t.clock.phase = t.phase := by rw [hclock]
          obtain ⟨hcounter, hphase⟩ := ih (t := t.clock) (by omega)
          refine ⟨hcounter.trans ?_, hphase.trans hsame⟩
          rw [hleft, Nat.sub_sub, Nat.add_comm]

namespace Noise

/-- Two noises that are alike but for their registers: so much of the count is left, the same next
run-out shifts, the same output, the same contents of the shift register. -/
structure RunsAlike (n n' : Noise) : Prop where
  counter : n.counter = n'.counter
  toggle : n.toggle = n'.toggle
  phase : n.phase = n'.phase
  register : n.register = n'.register

namespace RunsAlike

variable {n n' n'' : Noise}

theorem symm (h : n.RunsAlike n') : n'.RunsAlike n :=
  ⟨h.counter.symm, h.toggle.symm, h.phase.symm, h.register.symm⟩

theorem trans (h : n.RunsAlike n') (h' : n'.RunsAlike n'') : n.RunsAlike n'' :=
  ⟨h.counter.trans h'.counter, h.toggle.trans h'.toggle, h.phase.trans h'.phase,
    h.register.trans h'.register⟩

end RunsAlike

/-- The noise with so many clocks less on its count. -/
def countedDown (n : Noise) (clocks : Nat) : Noise :=
  { n with counter := n.counter - clocks }

/-- A noise told of fewer clocks than its count has left counts them down, and runs on as it was
otherwise. -/
theorem receiveAll_of_lt {n : Noise} (tone2 : Nat → Tone) {signals : List VoiceSignal}
    (h : signals.count .clock < max n.counter 1) :
    (n.receiveAll tone2 signals).RunsAlike (n.countedDown (signals.count .clock)) := by
  induction signals generalizing n tone2 with
  | nil => exact ⟨rfl, rfl, rfl, rfl⟩
  | cons s rest ih =>
      cases s with
      | write register width data =>
          rw [VoiceSignal.count_write_cons] at h ⊢
          obtain ⟨hcounter, htoggle, hphase, hregister⟩ :=
            ih (n := n.write register data) tone2 (by rwa [counter_write])
          rw [countedDown] at hcounter htoggle hphase hregister
          rw [counter_write] at hcounter
          rw [toggle_write] at htoggle
          rw [phase_write] at hphase
          rw [register_write] at hregister
          exact ⟨hcounter, htoggle, hphase, hregister⟩
      | clock =>
          rw [List.count_cons_self] at h ⊢
          have hclock : n.clock (tone2 0).period = n.countedDown 1 := if_neg (by omega)
          have hcount : (n.countedDown 1).countedDown (rest.count .clock) =
              n.countedDown (rest.count .clock + 1) := by
            simp only [countedDown, Nat.sub_sub, Nat.add_comm]
          rw [receiveAll, hclock, ← hcount]
          exact ih _ (by rw [countedDown]; dsimp only; omega)

/-- The clock with which the count runs out does the same to noises that run alike, except for the
bit it feeds back. -/
theorem RunsAlike.cross {n n' : Noise} (h : n.RunsAlike n') :
    n.cross.toggle = n'.cross.toggle ∧ n.cross.phase = n'.cross.phase ∧
      (∀ j < 15, n.cross.register.getLsbD j = n'.cross.register.getLsbD j) ∧
      (n.white = n'.white → n.cross.register = n'.cross.register) := by
  obtain ⟨-, htoggle, hphase, hregister⟩ := h
  unfold Noise.cross
  rw [← htoggle, ← hregister]
  cases n.toggle with
  | true => exact ⟨rfl, hphase, fun _ _ => rfl, fun _ => rfl⟩
  | false =>
      refine ⟨rfl, rfl, fun j hj => ?_, fun hwhite => congrArg (ShiftRegister.shift · _) hwhite⟩
      have hlow : ∀ white, (ShiftRegister.shift white n.register).getLsbD j =
          n.register.getLsbD (j + 1) := by
        intro white
        rw [ShiftRegister.getLsbD_shift white _ (by omega), if_neg (by omega)]
      exact (hlow n.white).trans (hlow n'.white).symm

end Noise

/-! ### The chip until a count runs out -/

namespace Chip

/-- A count runs out with the cycle after `n` cycles: that cycle brings the clock the count waits
for. -/
def RunsOutAfter (c : Chip) (count n : Nat) : Prop :=
  c.clocksIn n + 1 = max count 1 ∧ c.clocksIn (n + 1) = max count 1

variable {c : Chip} {i : Fin 3} {steps : List ChipStep}

/-- The cycle that brings one clock more is the one that empties the divider. -/
theorem divider_stepAll_le (hc : c.InRange) {count : Nat}
    (h : c.RunsOutAfter count (steps.count .cycle)) : (c.stepAll steps).divider ≤ 1 := by
  obtain ⟨hbefore, hafter⟩ := h
  rw [divider_stepAll hc]
  unfold clocksIn at hbefore hafter
  have hsixteen : prescale = 16 := rfl
  rw [hsixteen] at hbefore hafter ⊢
  omega

theorem tone_stepAll_of_lt (hc : c.InRange)
    (h : c.clocksIn (steps.count .cycle) < max (c.tone i).counter 1) :
    ((c.stepAll steps).tone i).counter =
        (c.tone i).counter - c.clocksIn (steps.count .cycle) ∧
      ((c.stepAll steps).tone i).phase = (c.tone i).phase := by
  rw [← count_clock_told hc (.ofTone i)] at h ⊢
  rw [tone_stepAll]
  exact Tone.receiveAll_of_lt h

/-- A tone flips with the clock its count waits for, and starts again from the period it then
has. -/
theorem tone_cycle_of_runsOut (hc : c.InRange)
    (h : c.RunsOutAfter (c.tone i).counter (steps.count .cycle)) :
    (c.stepAll steps).cycle.tone i =
      { (c.stepAll steps).tone i with
        counter := ((c.stepAll steps).tone i).period
        phase := !(c.tone i).phase } := by
  have hbefore : c.clocksIn (steps.count .cycle) < max (c.tone i).counter 1 :=
    Nat.lt_of_succ_le h.1.le
  have hclocks := h.1
  obtain ⟨hcounter, hphase⟩ := tone_stepAll_of_lt hc hbefore
  rw [tone_cycle_of_le (divider_stepAll_le hc h), Tone.clock, if_pos (by omega), hphase]

theorem noise_stepAll_of_lt (hc : c.InRange)
    (h : c.clocksIn (steps.count .cycle) < max c.noise.counter 1) :
    (c.stepAll steps).noise.RunsAlike (c.noise.countedDown (c.clocksIn (steps.count .cycle))) := by
  rw [← count_clock_told hc .noise] at h ⊢
  rw [noise_stepAll]
  exact Noise.receiveAll_of_lt _ h

/-- The noise crosses with the clock its count waits for, and starts again from the period of its
rate, that of tone 2 as it then is. -/
theorem noise_cycle_of_runsOut (hc : c.InRange)
    (h : c.RunsOutAfter c.noise.counter (steps.count .cycle)) :
    (c.stepAll steps).cycle.noise =
      { (c.stepAll steps).noise.cross with
        counter := (c.stepAll steps).noise.rate.period (c.stepAll steps).tone2.period } := by
  have hbefore : c.clocksIn (steps.count .cycle) < max c.noise.counter 1 :=
    Nat.lt_of_succ_le h.1.le
  have hclocks := h.1
  have hcounter := (noise_stepAll_of_lt hc hbefore).counter
  have hrunout : (c.stepAll steps).noise.counter ≤ 1 := by
    rw [hcounter, Noise.countedDown]
    dsimp only
    omega
  rw [noise_cycle_of_le (divider_stepAll_le hc h), Noise.clock, if_pos hrunout,
    Tone.period_clock]
  rfl

/-! ### Two runs of the same cycles -/

section

variable {steps' : List ChipStep}

theorem tone_stepAll_congr (hc : c.InRange) (hsame : steps.count .cycle = steps'.count .cycle)
    (h : c.clocksIn (steps.count .cycle) < max (c.tone i).counter 1) :
    ((c.stepAll steps).tone i).counter = ((c.stepAll steps').tone i).counter ∧
      ((c.stepAll steps).tone i).phase = ((c.stepAll steps').tone i).phase := by
  obtain ⟨hcounter, hphase⟩ := tone_stepAll_of_lt hc h
  rw [hsame] at h hcounter
  obtain ⟨hcounter', hphase'⟩ := tone_stepAll_of_lt hc h
  exact ⟨hcounter.trans hcounter'.symm, hphase.trans hphase'.symm⟩

theorem noise_stepAll_congr (hc : c.InRange) (hsame : steps.count .cycle = steps'.count .cycle)
    (h : c.clocksIn (steps.count .cycle) < max c.noise.counter 1) :
    (c.stepAll steps).noise.RunsAlike (c.stepAll steps').noise := by
  have hfirst := noise_stepAll_of_lt hc h
  rw [hsame] at h hfirst
  exact hfirst.trans (noise_stepAll_of_lt hc h).symm

/-- Of what the noise does when its count runs out, the writes before show in the bit fed back and
in the count. -/
theorem noise_cycle_congr (hc : c.InRange) (hsame : steps.count .cycle = steps'.count .cycle)
    (h : c.RunsOutAfter c.noise.counter (steps.count .cycle)) :
    let next := (c.stepAll steps).cycle.noise
    let next' := (c.stepAll steps').cycle.noise
    next.toggle = next'.toggle ∧ next.phase = next'.phase ∧
      (∀ j < 15, next.register.getLsbD j = next'.register.getLsbD j) ∧
      ((c.stepAll steps).noise.white = (c.stepAll steps').noise.white →
        next.register = next'.register) := by
  have hbefore : c.clocksIn (steps.count .cycle) < max c.noise.counter 1 :=
    Nat.lt_of_succ_le h.1.le
  have hcross := (noise_stepAll_congr hc hsame hbefore).cross
  have hnext := noise_cycle_of_runsOut hc h
  rw [hsame] at h
  rw [hnext, noise_cycle_of_runsOut hc h]
  exact hcross

end

/-- **Lazy reload.**  Run a chip for some cycles, once with bytes written in between and once
without.

As long as the channel clocks among the cycles are fewer than the count of a tone, its count and its
output are the same in both runs.  With the clock its count waits for the tone flips in both, and
starts again from what the period register then holds.

As long as they are fewer than the count of the noise, its count, its toggle, its output and its
shift register are the same in both runs.  With the clock its count waits for, toggle and output are
still the same in both, and so are all bits of the shift register but the one fed back, and that one
too if both runs have the same feedback; the count starts again from the period of the rate each run
then has, or from that of its tone 2. -/
theorem lazy_reload (history : List Operation) (events : List DeviceEvent) :
    let c := powerOn.run history
    let n := (events.map DeviceEvent.cycles).sum
    let written := DeviceEvent.replayAll c events
    let plain := c.advance n
    (∀ i,
      (c.clocksIn n < max (c.tone i).counter 1 →
        (written.tone i).counter = (plain.tone i).counter ∧
          (written.tone i).phase = (plain.tone i).phase) ∧
      (c.RunsOutAfter (c.tone i).counter n → ∀ run ∈ [written, plain],
        (run.advance 1).tone i =
          { run.tone i with counter := (run.tone i).period, phase := !(c.tone i).phase })) ∧
    (c.clocksIn n < max c.noise.counter 1 → written.noise.RunsAlike plain.noise) ∧
    (c.RunsOutAfter c.noise.counter n →
      let written' := (written.advance 1).noise
      let plain' := (plain.advance 1).noise
      written'.toggle = plain'.toggle ∧ written'.phase = plain'.phase ∧
        (∀ j < 15, written'.register.getLsbD j = plain'.register.getLsbD j) ∧
        (written.noise.white = plain.noise.white → written'.register = plain'.register) ∧
        ∀ run ∈ [written, plain],
          (run.advance 1).noise.counter = run.noise.rate.period run.tone2.period) := by
  intro c n written plain
  have hc : c.InRange := InRange.powerOn.run history
  -- both runs take the same number of cycles, and that is all the lemmas ask for
  obtain ⟨steps, hwritten, hsteps⟩ : ∃ steps, written = c.stepAll steps ∧ steps.count .cycle = n :=
    ⟨_, replayAll_eq_stepAll c events, ChipStep.count_cycle_steps events⟩
  obtain ⟨cycles, hplain, hcycles⟩ : ∃ cycles, plain = c.stepAll cycles ∧ cycles.count .cycle = n :=
    ⟨_, (c.stepAll_replicate_cycle n).symm, List.count_replicate_self⟩
  have hruns : ∀ run ∈ [written, plain], ∃ steps, run = c.stepAll steps ∧
      steps.count .cycle = n := by
    intro run hrun
    rcases List.mem_pair.mp hrun with rfl | rfl
    · exact ⟨steps, hwritten, hsteps⟩
    · exact ⟨cycles, hplain, hcycles⟩
  have hsame : steps.count .cycle = cycles.count .cycle := hsteps.trans hcycles.symm
  refine ⟨fun i => ⟨fun h => ?_, fun h run hrun => ?_⟩, fun h => ?_, fun h => ?_⟩
  · rw [hwritten, hplain]
    exact tone_stepAll_congr hc hsame (hsteps ▸ h)
  · obtain ⟨between, rfl, hbetween⟩ := hruns run hrun
    exact tone_cycle_of_runsOut hc (hbetween ▸ h)
  · rw [hwritten, hplain]
    exact noise_stepAll_congr hc hsame (hsteps ▸ h)
  · intro written' plain'
    have hcross := noise_cycle_congr hc hsame (hsteps ▸ h)
    rw [← hwritten, ← hplain] at hcross
    obtain ⟨htoggle, hphase, hlow, hregister⟩ := hcross
    refine ⟨htoggle, hphase, hlow, hregister, fun run hrun => ?_⟩
    obtain ⟨between, rfl, hbetween⟩ := hruns run hrun
    have hnext : (c.stepAll between).cycle.noise = _ :=
      noise_cycle_of_runsOut hc (hbetween ▸ h)
    show (c.stepAll between).cycle.noise.counter = _
    rw [hnext]

/-- The counts of tone 0 and of the noise have two clocks left.  Before the second of them, tone 0 is
tuned from 5 to 3, the noise is switched to periodic feedback, and tone 2 is tuned from 0 to 8. -/
theorem lazy_reload_tone0_noise :
    let c := powerOn.run [.write 0x85, .write 0xE7, .advance 224]
    let written := DeviceEvent.replayAll c
      [.advance 20, .write 0x83, .write 0xE3, .write 0xC8, .advance 11]
    let plain := c.advance 31
    ((written.tone 0).counter = (plain.tone 0).counter ∧
        (written.tone 0).phase = (plain.tone 0).phase) ∧
      (written.advance 1).tone 0 =
        { written.tone 0 with counter := 3, phase := !(c.tone 0).phase } ∧
      (plain.advance 1).tone 0 = { plain.tone 0 with counter := 5, phase := !(c.tone 0).phase } ∧
      written.noise.RunsAlike plain.noise ∧
      (written.advance 1).noise.phase = (plain.advance 1).noise.phase ∧
      (written.advance 1).noise.counter = 8 ∧ (plain.advance 1).noise.counter = 0 := by
  have hsum : (([.advance 20, .write 0x83, .write 0xE3, .write 0xC8, .advance 11] :
      List DeviceEvent).map DeviceEvent.cycles).sum = 31 := rfl
  have hall := lazy_reload [.write 0x85, .write 0xE7, .advance 224]
    [.advance 20, .write 0x83, .write 0xE3, .write 0xC8, .advance 11]
  simp only [hsum, List.forall_mem_cons, List.not_mem_nil] at hall
  obtain ⟨htone, hnoise, hcross⟩ := hall
  obtain ⟨hcount, hflip⟩ := htone 0
  obtain ⟨hwritten, hplain, -⟩ := hflip (by unfold RunsOutAfter; decide +kernel)
  obtain ⟨-, hphase, -, -, hreload, hreload', -⟩ :=
    hcross (by unfold RunsOutAfter; decide +kernel)
  have hthree : ((DeviceEvent.replayAll (powerOn.run [.write 0x85, .write 0xE7, .advance 224])
      [.advance 20, .write 0x83, .write 0xE3, .write 0xC8, .advance 11]).tone 0).period = 3 := by
    decide +kernel
  have hfive : (((powerOn.run [.write 0x85, .write 0xE7, .advance 224]).advance 31).tone 0).period =
      5 := by
    decide +kernel
  rw [hthree] at hwritten
  rw [hfive] at hplain
  dsimp only
  refine ⟨hcount (by decide +kernel), ?_, ?_, hnoise (by decide +kernel), hphase,
    hreload.trans (by decide +kernel), hreload'.trans (by decide +kernel)⟩
  · rw [hthree]
    exact hwritten
  · rw [hfive]
    exact hplain

end Chip

end Chiptune
