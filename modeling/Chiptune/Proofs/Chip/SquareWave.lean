import Chiptune.Proofs.Chip.Countdown
import Chiptune.Proofs.Chip.Mutes
import Chiptune.Proofs.Chip.Settings
import Mathlib.Algebra.BigOperators.Fin

/-!
# Chip — Square waves

A tone that is left alone is a square wave.  Its output flips when the running count runs out, and
then once every period, where a period of 0 is as short as one of 1 (`runOuts`).

* `signals_replicate_cycle`: a stretch of cycles holds one channel clock for every sixteen, counted
  from where the prescaler stands, and nothing else.
* `phase_clocks`: after so many clocks the output is the one before, flipped each time the count has
  run out.
* `sample_advance_of_atRest`: so the output of a chip whose tones start from rest is, after any
  stretch of cycles, a sum of three square waves (`squareWave`), as long as the noise is silent.
-/

namespace Chiptune

/-! ### Channel clocks in a stretch of cycles -/

/-- A stretch of cycles holds one clock for every sixteen, counted from the last clock on. -/
theorem signals_replicate_cycle (v : Voice) (latch : Target) {divider : Nat} (hpos : 1 ≤ divider)
    (hle : divider ≤ prescale) (n : Nat) :
    signals v latch divider (List.replicate n .cycle) =
      List.replicate ((prescale - divider + n) / prescale) .clock := by
  induction n generalizing divider with
  | zero =>
      have hnone : (prescale - divider + 0) / prescale = 0 :=
        Nat.div_eq_of_lt (show _ < 16 by unfold prescale; omega)
      rw [hnone]
      rfl
  | succ n ih =>
      rw [List.replicate_succ, signals]
      split
      · have hclock : (prescale - divider + (n + 1)) / prescale =
            (prescale - prescale + n) / prescale + 1 := by
          unfold prescale
          omega
        rw [ih (by decide) Nat.le.refl, hclock, List.replicate_succ]
      · have hsame : prescale - divider + (n + 1) = prescale - (divider - 1) + n := by omega
        rw [ih (by omega) (by omega), hsame]

namespace Tone

/-- A number of channel clocks of a tone that is left alone. -/
def clocks (t : Tone) (n : Nat) : Tone :=
  t.receiveAll (List.replicate n .clock)

@[simp] theorem clocks_zero (t : Tone) : t.clocks 0 = t := rfl

@[simp] theorem clocks_succ (t : Tone) (n : Nat) : t.clocks (n + 1) = t.clock.clocks n := rfl

@[simp] theorem volume_clocks (t : Tone) (n : Nat) : (t.clocks n).volume = t.volume := by
  induction n generalizing t with
  | zero => rfl
  | succ n ih => rw [clocks_succ, ih, volume_clock]

/-- **The square wave.**  After a number of clocks the output has flipped each time the count has run
out. -/
theorem phase_clocks (t : Tone) (n : Nat) :
    (t.clocks n).phase = (t.phase ^^ decide (runOuts t.counter t.period n % 2 = 1)) := by
  induction n generalizing t with
  | zero =>
      rw [clocks_zero, runOuts_zero]
      simp
  | succ n ih =>
      -- only the first clock is looked at; from there on the tone it leaves is the one to count from
      rw [clocks_succ, ih]
      by_cases h : t.counter ≤ 1
      · have hclock : t.clock = { t with counter := t.period, phase := !t.phase } := if_pos h
        rw [hclock, runOuts_succ_of_le _ _ h, decide_odd_succ, Bool.not_xor, Bool.xor_not]
      · have hclock : t.clock = { t with counter := t.counter - 1 } := if_neg h
        rw [hclock, runOuts_succ_of_not_le _ _ h]

end Tone

/-! ### The chip after a stretch of cycles -/

theorem Noise.volume_clock (n : Noise) (tone2Period : Nat) :
    (n.clock tone2Period).volume = n.volume := by
  unfold clock cross
  split
  · split <;> rfl
  · rfl

namespace Chip

variable (c : Chip)

/-- The channel clocks in a stretch of cycles. -/
def clocksIn (n : Nat) : Nat :=
  (prescale - c.divider + n) / prescale

theorem tone_advance (hpos : 1 ≤ c.divider) (hle : c.divider ≤ prescale) (i : Fin 3) (n : Nat) :
    (c.advance n).tone i = (c.tone i).clocks (c.clocksIn n) := by
  rw [← stepAll_replicate_cycle, tone_stepAll, told, signals_replicate_cycle _ _ hpos hle]
  rfl

theorem volume_noise_advance (n : Nat) : (c.advance n).noise.volume = c.noise.volume := by
  induction n generalizing c with
  | zero => rfl
  | succ n ih =>
      rw [advance_succ, ih]
      by_cases h : c.divider ≤ 1
      · rw [noise_cycle_of_le h, Noise.volume_clock]
      · rw [noise_cycle_of_not_le h]

/-- What a tone adds to the output, if its voice is not muted: its amplitude while it is high. -/
theorem contribution_level (muted : Bool) (t : Tone) :
    contribution muted t.level =
      if muted = false ∧ t.phase = true then amplitude t.volume else 0 :=
  contribution_ite muted t.phase t.volume

/-- With the noise silent, the output is the sum of the tones. -/
theorem sample_eq_sum (h : c.noise.volume = silentLevel) :
    c.sample = ∑ i : Fin 3, contribution (c.isMuted i) (c.tone i).level := by
  have hnoise : contribution c.mutes.noise c.noise.level = 0 := by
    have hlevel : c.noise.level = silentLevel := by
      rw [Noise.level, h, ite_self]
    rw [hlevel, contribution, amplitude_silentLevel, ite_self]
  rw [sample, mix, Fin.sum_univ_three]
  show _ + _ + _ + contribution c.mutes.noise c.noise.level = _
  rw [hnoise]
  rfl

/-- How often a tone with a period has flipped so many channel clocks after rest. -/
def flipsFromRest (period clocks : Nat) : Nat :=
  if clocks = 0 then 0 else 1 + (clocks - 1) / max period 1

/-- The output of three tones so many channel clocks after rest. -/
def squareWave (values : Fin 3 × Register → Nat) (muted : Fin 3 → Bool) (clocks : Nat) : Nat :=
  ∑ i : Fin 3, if muted i = false ∧ flipsFromRest (values (i, .period)) clocks % 2 = 1 then
    amplitude (values (i, .volume)) else 0

theorem isMuted_advance (index n : Nat) : (c.advance n).isMuted index = c.isMuted index := by
  rw [isMuted, mutes_advance, isMuted]

variable {c}

/-- **From rest to square waves.**  A chip at rest puts out the square waves of the values in its
registers. -/
theorem sample_advance_of_atRest {values : Fin 3 × Register → Nat} (h : c.AtRest)
    (hvalues : ∀ setting, (c.tone setting.1).register setting.2 = values setting) (n : Nat) :
    (c.advance n).sample = squareWave values (c.isMuted ·) (n / 16) := by
  have hnoise : (c.advance n).noise.volume = silentLevel :=
    (c.volume_noise_advance n).trans h.noise
  rw [sample_eq_sum _ hnoise, squareWave]
  refine Finset.sum_congr rfl fun i _ => ?_
  obtain ⟨hcounter, hphase⟩ := h.tone i
  have hperiod : (c.tone i).period = values (i, .period) := hvalues (i, .period)
  have hvolume : (c.tone i).volume = values (i, .volume) := hvalues (i, .volume)
  have hclocks : c.clocksIn n = n / 16 := by
    rw [clocksIn, h.divider, Nat.sub_self, Nat.zero_add]
    rfl
  have hflips : runOuts (c.tone i).counter (c.tone i).period (n / 16) =
      flipsFromRest (values (i, .period)) (n / 16) := by
    rw [runOuts, hcounter, hperiod, Nat.zero_max, flipsFromRest]
    simp only [Nat.lt_one_iff]
  have htone := c.tone_advance (by rw [h.divider]; decide) (Nat.le_of_eq h.divider) i n
  rw [contribution_level, isMuted_advance, htone, hclocks, Tone.phase_clocks, Tone.volume_clocks,
    hphase, hflips, hvolume, Bool.false_xor]
  simp only [decide_eq_true_eq]

end Chip

end Chiptune
