import Chiptune.Proofs.Chip.Crossings
import Chiptune.Proofs.Chip.SquareWave

/-!
# Chip — Fast forward

Where a voice stands after a number of channel clocks can be worked out at once, as long as nothing
is written.  For a tone it takes its count and how often that runs out (`Tone.fastForward`).  For the
noise it takes as well how many of the run-outs shift the register, which is every second one
(`Noise.fastForward`).

* `Tone.clocks_eq_fastForward`: clock by clock, a tone gets there.
* `Noise.clocks_eq_iterate_cross`: clocks of the noise are so many crossings, and a count;
  `Noise.iterate_cross`: crossings are half as many shifts.  Together `clocks_eq_fastForward`.
* `Chip.advance_eq_iterate`: a stretch of cycles is so many clocks of all four voices, and a divider.

A clock moves tone 2 before the noise reads its period, but never changes that period: the noise
reads the same one at every clock of a stretch.
-/

namespace Chiptune

/-! ### A tone -/

namespace Tone

@[simp] theorem period_clocks (t : Tone) (n : Nat) : (t.clocks n).period = t.period := by
  induction n generalizing t with
  | zero => rfl
  | succ n ih => rw [clocks_succ, ih, period_clock]

theorem counter_clocks (t : Tone) (n : Nat) :
    (t.clocks n).counter = countLeft t.counter t.period n := by
  induction n generalizing t with
  | zero => exact (countLeft_zero _ _).symm
  | succ n ih =>
      rw [clocks_succ, ih, period_clock, clock]
      split
      · rename_i h
        exact (countLeft_succ_of_le _ _ h).symm
      · rename_i h
        exact (countLeft_succ_of_not_le _ _ h).symm

/-- A tone after a number of channel clocks: its count where it then stands, and its output flipped
each time the count has run out. -/
def fastForward (t : Tone) (clocks : Nat) : Tone :=
  { t with
    counter := countLeft t.counter t.period clocks
    phase := t.phase ^^ decide (runOuts t.counter t.period clocks % 2 = 1) }

theorem clocks_eq_fastForward (t : Tone) (n : Nat) : t.clocks n = t.fastForward n := by
  calc t.clocks n
      = ⟨(t.clocks n).volume, (t.clocks n).period, (t.clocks n).counter, (t.clocks n).phase⟩ := rfl
    _ = t.fastForward n := by
      rw [volume_clocks, period_clocks, counter_clocks, phase_clocks]
      rfl

end Tone

/-! ### The noise -/

namespace Noise

variable (n : Noise)

/-- The noise with another count. -/
def withCounter (counter : Nat) : Noise :=
  { n with counter := counter }

theorem cross_withCounter (counter : Nat) :
    (n.withCounter counter).cross = n.cross.withCounter counter := by
  unfold cross withCounter
  cases n.toggle <;> rfl

theorem iterate_cross_withCounter (counter m : Nat) :
    cross^[m] (n.withCounter counter) = (cross^[m] n).withCounter counter := by
  have hcommute : Function.Commute cross (withCounter · counter) :=
    fun n => n.cross_withCounter counter
  exact hcommute.iterate_left m n

theorem nextPeriod_cross (tone2Period : Nat) :
    n.cross.nextPeriod tone2Period = n.nextPeriod tone2Period := by
  unfold cross
  split <;> rfl

/-- A number of channel clocks of a noise, at each of which the period register of tone 2 holds
`tone2Period`. -/
def clocks (n : Noise) (tone2Period : Nat) : Nat → Noise
  | 0 => n
  | k + 1 => (n.clock tone2Period).clocks tone2Period k

/-- Clocks are crossings, as often as the count runs out, and a count. -/
theorem clocks_eq_iterate_cross (tone2Period k : Nat) :
    let period := n.nextPeriod tone2Period
    n.clocks tone2Period k =
      (cross^[runOuts n.counter period k] n).withCounter (countLeft n.counter period k) := by
  induction k generalizing n with
  | zero =>
      intro period
      rw [runOuts_zero, countLeft_zero]
      rfl
  | succ k ih =>
      intro period
      rw [clocks]
      by_cases h : n.counter ≤ 1
      · have hclock : n.clock tone2Period = n.cross.withCounter period := if_pos h
        have hperiod : (n.cross.withCounter period).nextPeriod tone2Period = period :=
          n.nextPeriod_cross tone2Period
        rw [hclock, ih, hperiod, iterate_cross_withCounter, ← Function.iterate_succ_apply,
          runOuts_succ_of_le _ _ h, countLeft_succ_of_le _ _ h]
        rfl
      · have hclock : n.clock tone2Period = n.withCounter (n.counter - 1) := if_neg h
        have hperiod : (n.withCounter (n.counter - 1)).nextPeriod tone2Period = period := rfl
        rw [hclock, ih, hperiod, iterate_cross_withCounter, runOuts_succ_of_not_le _ _ h,
          countLeft_succ_of_not_le _ _ h]
        rfl

/-- How many of a number of crossings shift the register: every second one, beginning with the first
unless the toggle is set. -/
def shiftsAmong (toggle : Bool) (crossings : Nat) : Nat :=
  (crossings + if toggle then 0 else 1) / 2

theorem shiftsAmong_zero (toggle : Bool) : shiftsAmong toggle 0 = 0 := by
  cases toggle <;> rfl

/-- The crossing after `m` others shifts if these have left the toggle clear. -/
theorem shiftsAmong_succ (toggle : Bool) (m : Nat) :
    shiftsAmong toggle (m + 1) =
      shiftsAmong toggle m + if (toggle ^^ decide (m % 2 = 1)) then 0 else 1 := by
  unfold shiftsAmong
  rcases Nat.mod_two_eq_zero_or_one m with h | h
  · cases toggle <;> simp [h] <;> omega
  · cases toggle <;> simp [h] <;> omega

/-- The shift register after a number of shifts. -/
def registerAfter (shifts : Nat) : ShiftRegister :=
  (ShiftRegister.shift n.white)^[shifts] n.register

theorem registerAfter_succ (shifts : Nat) :
    n.registerAfter (shifts + 1) = ShiftRegister.shift n.white (n.registerAfter shifts) :=
  Function.iterate_succ_apply' _ _ _

/-- The noise after a number of crossings: the register shifted as often as some of them do, and the
output as the last of the shifts took it, from the register before. -/
def afterCrossings (crossings : Nat) : Noise :=
  let shifts := shiftsAmong n.toggle crossings
  { n with
    toggle := n.toggle ^^ decide (crossings % 2 = 1)
    phase := if shifts = 0 then n.phase else (n.registerAfter (shifts - 1)).getLsbD 0
    register := n.registerAfter shifts }

/-- One crossing more: it shifts if those before have left the toggle clear. -/
theorem cross_afterCrossings (m : Nat) : (n.afterCrossings m).cross = n.afterCrossings (m + 1) := by
  have hnext : (n.toggle ^^ decide ((m + 1) % 2 = 1)) = !(n.toggle ^^ decide (m % 2 = 1)) := by
    rw [decide_odd_succ, Bool.xor_not]
  conv_rhs => rw [afterCrossings, shiftsAmong_succ, hnext]
  cases htoggle : (n.toggle ^^ decide (m % 2 = 1)) with
  | true => exact cross_of_set htoggle
  | false =>
      rw [cross_of_clear htoggle, if_neg Bool.false_ne_true, if_neg (Nat.succ_ne_zero _),
        Nat.add_sub_cancel, registerAfter_succ]
      rfl

theorem iterate_cross (m : Nat) : cross^[m] n = n.afterCrossings m := by
  induction m with
  | zero =>
      have htoggle : (n.toggle ^^ decide (0 % 2 = 1)) = n.toggle := Bool.xor_false _
      rw [afterCrossings, shiftsAmong_zero, htoggle]
      rfl
  | succ m ih => rw [Function.iterate_succ_apply', ih, cross_afterCrossings]

/-- The noise after a number of channel clocks, at each of which the period register of tone 2 holds
`tone2Period`. -/
def fastForward (tone2Period clocks : Nat) : Noise :=
  let period := n.nextPeriod tone2Period
  { n.afterCrossings (runOuts n.counter period clocks) with
    counter := countLeft n.counter period clocks }

theorem clocks_eq_fastForward (tone2Period k : Nat) :
    n.clocks tone2Period k = n.fastForward tone2Period k := by
  rw [clocks_eq_iterate_cross, iterate_cross]
  rfl

/-- One channel clock of a noise beside a tone 2, which it only reads. -/
def clockBeside (s : Noise × Tone) : Noise × Tone :=
  (s.1.clock s.2.period, s.2)

theorem iterate_clockBeside_eq_clocks (tone2 : Tone) (k : Nat) :
    clockBeside^[k] (n, tone2) = (n.clocks tone2.period k, tone2) := by
  induction k generalizing n with
  | zero => rfl
  | succ k ih => exact ih (n.clock tone2.period)

/-- **The noise, worked out at once.**  After a number of channel clocks beside a tone 2, and no
write, the noise is where `fastForward` puts it, and the tone is as it was.  At the rate of tone 2,
with the period another rate gives, it is where it would be at that rate, whatever tone 2 the other
rate is beside. -/
theorem iterate_clockBeside (tone2 : Tone) (clocks : Nat) :
    clockBeside^[clocks] (n, tone2) = (n.fastForward tone2.period clocks, tone2) ∧
    ∀ (rate : NoiseRate) (tone2' : Tone), rate.period tone2'.period = tone2.period →
      (clockBeside^[clocks] ({ n with rate := .tone2 }, tone2)).1 =
        { (clockBeside^[clocks] ({ n with rate := rate }, tone2')).1 with rate := .tone2 } := by
  have hclocks : ∀ (n : Noise) (tone2 : Tone),
      clockBeside^[clocks] (n, tone2) = (n.fastForward tone2.period clocks, tone2) :=
    fun n tone2 => by rw [iterate_clockBeside_eq_clocks, clocks_eq_fastForward]
  refine ⟨hclocks n tone2, fun rate tone2' h => ?_⟩
  rw [hclocks, hclocks]
  -- the two periods are the same, and the rate shows in nothing else
  have hperiod : ({ n with rate := rate } : Noise).nextPeriod tone2'.period =
      ({ n with rate := .tone2 } : Noise).nextPeriod tone2.period := h
  rw [fastForward, fastForward, hperiod]
  rfl

/-- A count of 3 and a period of 32: in a hundred clocks the noise crosses four times, and two of the
crossings shift, as the toggle is set at first. -/
theorem iterate_clockBeside_medium :
    let n : Noise :=
      { powerOn with counter := 3, toggle := true, white := true, register := 0x8009#16 }
    let tone2 : Tone := { Tone.powerOn with period := 0x20 }
    NoiseRate.medium.period Tone.powerOn.period = tone2.period ∧
    (clockBeside^[100] ({ n with rate := .tone2 }, tone2)).1 =
      { (clockBeside^[100] ({ n with rate := .medium }, Tone.powerOn)).1 with rate := .tone2 } ∧
    clockBeside^[100] ({ n with rate := .tone2 }, tone2) =
      ({ n with rate := .tone2, counter := 31, register := 0x2002#16 }, tone2) := by
  intro n tone2
  have hperiod : NoiseRate.medium.period Tone.powerOn.period = tone2.period := rfl
  obtain ⟨hnoise, -⟩ := iterate_clockBeside { n with rate := .tone2 } tone2 100
  obtain ⟨-, hrate⟩ := iterate_clockBeside n tone2 100
  refine ⟨hperiod, hrate .medium Tone.powerOn hperiod, hnoise.trans ?_⟩
  decide

end Noise

/-! ### The chip -/

namespace Chip

variable {c : Chip}

/-- The chip with another divider. -/
def withDivider (c : Chip) (divider : Nat) : Chip :=
  { c with divider := divider }

theorem iterate_clockVoices_withDivider (c : Chip) (divider k : Nat) :
    clockVoices^[k] (c.withDivider divider) = (clockVoices^[k] c).withDivider divider := by
  have hcommute : Function.Commute clockVoices (withDivider · divider) := fun _ => rfl
  exact hcommute.iterate_left k c

/-- A stretch of cycles is so many clocks of all four voices, and a divider. -/
theorem advance_eq_iterate (hpos : 1 ≤ c.divider) (hle : c.divider ≤ prescale) (n : Nat) :
    c.advance n = (clockVoices^[c.clocksIn n] c).withDivider
      (prescale - (prescale - c.divider + n) % prescale) := by
  change c.divider ≤ 16 at hle
  show c.advance n = (clockVoices^[(16 - c.divider + n) / 16] c).withDivider
    (16 - (16 - c.divider + n) % 16)
  induction n generalizing c with
  | zero =>
      have hnone : (16 - c.divider + 0) / 16 = 0 := by omega
      have hdivider : 16 - (16 - c.divider + 0) % 16 = c.divider := by omega
      rw [hnone, hdivider]
      rfl
  | succ n ih =>
      rw [advance_succ]
      by_cases h : c.divider ≤ 1
      · have hcycle : c.cycle = c.clockVoices.withDivider 16 := cycle_of_le h
        have hclocks : (16 - c.divider + (n + 1)) / 16 = (16 - 16 + n) / 16 + 1 := by omega
        have hdivider : (16 - c.divider + (n + 1)) % 16 = (16 - 16 + n) % 16 := by omega
        rw [hcycle, hclocks, hdivider, Function.iterate_succ_apply]
        refine (ih (Nat.le_of_ble_eq_true rfl) (Nat.le_refl 16)).trans ?_
        rw [iterate_clockVoices_withDivider]
        rfl
      · have hcycle : c.cycle = c.withDivider (c.divider - 1) := cycle_of_not_le h
        have hsame : 16 - c.divider + (n + 1) = 16 - (c.divider - 1) + n := by omega
        have hpos' : 1 ≤ c.divider - 1 := by omega
        have hle' : c.divider - 1 ≤ 16 := by omega
        rw [hcycle, hsame]
        refine (ih (c := c.withDivider (c.divider - 1)) hpos' hle').trans ?_
        rw [iterate_clockVoices_withDivider]
        rfl

/-- Each voice is clocked on its own; the noise reads the same period of tone 2 every time. -/
theorem iterate_clockVoices (c : Chip) (k : Nat) :
    clockVoices^[k] c =
      { c with
        tone0 := c.tone0.clocks k
        tone1 := c.tone1.clocks k
        tone2 := c.tone2.clocks k
        noise := c.noise.clocks c.tone2.period k } := by
  induction k generalizing c with
  | zero => rfl
  | succ k ih =>
      rw [Function.iterate_succ_apply, ih]
      simp only [clockVoices, Tone.clocks_succ, Noise.clocks, Tone.period_clock]

/-- The chip after a stretch of cycles. -/
def fastForward (c : Chip) (cycles : Nat) : Chip :=
  let clocks := c.clocksIn cycles
  { c with
    tone0 := c.tone0.fastForward clocks
    tone1 := c.tone1.fastForward clocks
    tone2 := c.tone2.fastForward clocks
    noise := c.noise.fastForward c.tone2.period clocks
    divider := prescale - (prescale - c.divider + cycles) % prescale }

/-- **Time, worked out at once.**  Wherever a chip has got to, a stretch of cycles tells each voice of
`clocksIn` clocks and of nothing else, and the chip clocks its voices so often.  That puts every
voice, and the divider, where `fastForward` puts them, and leaves the latch and the mutes.  Two
stretches are one long one. -/
theorem advance_eq_fastForward (history : List Operation) (n : Nat) :
    let c := powerOn.run history
    let clocks := (16 - c.divider + n) / 16
    (∀ v, c.told v (List.replicate n .cycle) = List.replicate clocks .clock) ∧
    c.advance n = (clockVoices^[clocks] c).withDivider (16 - (16 - c.divider + n) % 16) ∧
    c.advance n = c.fastForward n ∧
    ∀ m, (c.advance m).advance n = c.advance (m + n) := by
  intro c clocks
  have hc : c.InRange := InRange.powerOn.run history
  have hadvance := c.advance_eq_iterate hc.divider_pos hc.divider_le n
  refine ⟨fun v => ?_, hadvance, ?_, fun m => (c.advance_add m n).symm⟩
  · exact signals_replicate_cycle v c.latch hc.divider_pos hc.divider_le n
  · rw [hadvance, iterate_clockVoices, Tone.clocks_eq_fastForward, Tone.clocks_eq_fastForward,
      Tone.clocks_eq_fastForward, Noise.clocks_eq_fastForward]
    rfl

end Chip

end Chiptune
