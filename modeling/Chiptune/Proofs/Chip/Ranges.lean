import Chiptune.Chip.History

/-!
# Chip — Ranges

Every state a chip can get into keeps its registers and counters in their ranges (`InRange`): each
operation keeps them (`InRange.apply`), and so does every history (`InRange.run`).

The fields lean on each other.  The noise counter starts again from the period register of tone 2,
so its bound is that register's.  The shift register stays non-zero because a shift moves fifteen
bits down and makes the last one from bit 0 and perhaps bit 3: a register that shifts to zero had
no bit set (`ShiftRegister.shift_ne_zero`), whichever feedback the shift takes.
-/

namespace Chiptune

/-! ### The shift register -/

namespace ShiftRegister

/-- A shift moves every bit one down, and the feedback goes to the top. -/
theorem getLsbD_shift (white : Bool) (r : ShiftRegister) {i : Nat} (hi : i < 16) :
    (shift white r).getLsbD i = if i = 15 then feedback white r else r.getLsbD (i + 1) := by
  have htop : (0x8000#16).getLsbD i = decide (i = 15) := by
    have h : ∀ j : Fin 16, (0x8000#16).getLsbD j = decide (j.val = 15) := by decide
    exact h ⟨i, hi⟩
  rw [shift, BitVec.getLsbD_or, BitVec.getLsbD_ushiftRight, Nat.add_comm 1 i]
  by_cases h15 : i = 15
  · subst h15
    rw [if_pos rfl, BitVec.getLsbD_of_ge r 16 (Nat.le_refl 16), Bool.false_or]
    cases feedback white r <;> rfl
  · rw [if_neg h15]
    cases feedback white r
    · rw [if_neg Bool.false_ne_true, BitVec.getLsbD_zero, Bool.or_false]
    · rw [if_pos rfl, htop, decide_eq_false h15, Bool.or_false]

/-- The register never locks up: no shift makes it zero. -/
theorem shift_ne_zero (white : Bool) {r : ShiftRegister} (hr : r ≠ 0#16) : shift white r ≠ 0#16 := by
  intro hzero
  have hbit : ∀ i, i < 16 →
      (if i = 15 then feedback white r else r.getLsbD (i + 1)) = false := by
    intro i hi
    rw [← getLsbD_shift white r hi, hzero, BitVec.getLsbD_zero]
  -- bits 1 to 15 moved to bits 0 to 14
  have hupper : ∀ i, 0 < i → i < 16 → r.getLsbD i = false := by
    intro i hpos hi
    have h := hbit (i - 1) (by omega)
    rwa [if_neg (by omega), Nat.sub_add_cancel hpos] at h
  -- the top bit is bit 0, perhaps with bit 3, which was not set
  have hlow : r.getLsbD 0 = false := by
    have h : feedback white r = false := hbit 15 (by decide)
    rwa [feedback, hupper 3 (by decide) (by decide), Bool.and_false, Bool.xor_false] at h
  refine hr (BitVec.eq_of_getLsbD_eq ?_)
  intro i hi
  rw [BitVec.getLsbD_zero]
  rcases Nat.eq_zero_or_pos i with rfl | hpos
  · exact hlow
  · exact hupper i hpos hi

end ShiftRegister

/-! ### The voices -/

/-- The largest value of a ten-bit period. -/
def maxPeriod : Nat := 0x3FF

/-- The fields of a tone voice are in their ranges. -/
structure Tone.InRange (t : Tone) : Prop where
  volume_le : t.volume ≤ 15
  period_le : t.period ≤ maxPeriod
  counter_le : t.counter ≤ maxPeriod

/-- The fields of the noise voice are in their ranges, and its register is not locked up. -/
structure Noise.InRange (n : Noise) : Prop where
  volume_le : n.volume ≤ 15
  /-- Every rate is in its range (`NoiseRate.bits_le`): `NoiseRate.ofBits` has masked it. -/
  rate_le : n.rate.bits ≤ 3
  counter_le : n.counter ≤ maxPeriod
  register_ne_zero : n.register ≠ 0#16

namespace Tone.InRange

theorem powerOn : Tone.powerOn.InRange :=
  ⟨by decide, by decide, by decide⟩

theorem clock {t : Tone} (h : t.InRange) : t.clock.InRange := by
  unfold Tone.clock
  split
  · exact ⟨h.volume_le, h.period_le, h.period_le⟩
  · exact ⟨h.volume_le, h.period_le, Nat.le_trans (Nat.sub_le _ _) h.counter_le⟩

theorem write {t : Tone} (h : t.InRange) (r : Register) (w : Width) (d : Nat) :
    (t.write r w d).InRange := by
  have hp : t.period ≤ 1023 := h.period_le
  have hd : d % 16 ≤ 15 := by omega
  cases r with
  | volume => exact ⟨hd, h.period_le, h.counter_le⟩
  | period =>
      cases w with
      | narrow =>
          have hnew : t.period / 16 % 64 * 16 + d % 16 ≤ 1023 := by omega
          exact ⟨h.volume_le, hnew, h.counter_le⟩
      | wide =>
          have hnew : d % 64 * 16 + t.period % 16 ≤ 1023 := by omega
          exact ⟨h.volume_le, hnew, h.counter_le⟩

end Tone.InRange

theorem NoiseRate.bits_le (r : NoiseRate) : r.bits ≤ 3 := by
  cases r <;> decide

theorem NoiseRate.period_le {tone2Period : Nat} (h : tone2Period ≤ maxPeriod) (r : NoiseRate) :
    r.period tone2Period ≤ maxPeriod := by
  cases r with
  | high | medium | low => exact Nat.le_of_ble_eq_true rfl
  | tone2 => exact h

namespace Noise.InRange

theorem powerOn : Noise.powerOn.InRange :=
  ⟨by decide, by decide, by decide, by decide⟩

theorem cross {n : Noise} (h : n.InRange) : n.cross.InRange := by
  unfold Noise.cross
  split
  · exact ⟨h.volume_le, h.rate_le, h.counter_le, h.register_ne_zero⟩
  · exact ⟨h.volume_le, h.rate_le, h.counter_le,
      ShiftRegister.shift_ne_zero n.white h.register_ne_zero⟩

theorem clock {n : Noise} (h : n.InRange) {tone2Period : Nat} (hp : tone2Period ≤ maxPeriod) :
    (n.clock tone2Period).InRange := by
  unfold Noise.clock
  split
  · exact ⟨h.cross.volume_le, h.cross.rate_le, n.rate.period_le hp, h.cross.register_ne_zero⟩
  · exact ⟨h.volume_le, h.rate_le, Nat.le_trans (Nat.sub_le _ _) h.counter_le,
      h.register_ne_zero⟩

theorem write {n : Noise} (h : n.InRange) (r : Register) (d : Nat) : (n.write r d).InRange := by
  have hd : d % 16 ≤ 15 := by omega
  cases r with
  | volume => exact ⟨hd, h.rate_le, h.counter_le, h.register_ne_zero⟩
  | period => exact ⟨h.volume_le, NoiseRate.bits_le _, h.counter_le, h.register_ne_zero⟩

end Noise.InRange

/-! ### The chip -/

namespace Chip

/-- The fields of the chip are in their ranges. -/
structure InRange (c : Chip) : Prop where
  divider_pos : 1 ≤ c.divider
  divider_le : c.divider ≤ 16
  /-- Every latch is in its range (`latch_index_le`): `Voice.ofBits` has masked the voice. -/
  latch_le : c.latch.voice.index ≤ 3
  tone : ∀ i, (c.tone i).InRange
  noise : c.noise.InRange

/-- A property of the three tones, tone by tone. -/
theorem forall_tone {c : Chip} {P : Tone → Prop} :
    (∀ i, P (c.tone i)) ↔ P c.tone0 ∧ P c.tone1 ∧ P c.tone2 :=
  ⟨fun h => ⟨h 0, h 1, h 2⟩, fun ⟨h0, h1, h2⟩ i => by
    match i with
    | 0 => exact h0
    | 1 => exact h1
    | 2 => exact h2⟩

theorem latch_index_le (t : Target) : t.voice.index ≤ 3 :=
  Nat.le_of_lt_succ t.voice.index_lt

namespace InRange

variable {c : Chip}

theorem powerOn : Chip.powerOn.InRange where
  divider_pos := by decide
  divider_le := by decide
  latch_le := by decide
  tone := forall_tone.mpr ⟨.powerOn, .powerOn, .powerOn⟩
  noise := .powerOn

theorem writeTo (h : c.InRange) (t : Target) (w : Width) (d : Nat) : (c.writeTo t w d).InRange := by
  obtain ⟨h0, h1, h2⟩ := forall_tone.mp h.tone
  unfold Chip.writeTo
  cases t.voice with
  | tone0 => exact { h with tone := forall_tone.mpr ⟨h0.write _ _ _, h1, h2⟩ }
  | tone1 => exact { h with tone := forall_tone.mpr ⟨h0, h1.write _ _ _, h2⟩ }
  | tone2 => exact { h with tone := forall_tone.mpr ⟨h0, h1, h2.write _ _ _⟩ }
  | noise => exact { h with noise := h.noise.write _ _ }

theorem write (h : c.InRange) (byte : UInt8) : (c.write byte).InRange := by
  unfold Chip.write
  split
  · rename_i t d _
    have hlatched : { c with latch := t }.InRange := { h with latch_le := latch_index_le t }
    exact hlatched.writeTo _ _ _
  · exact h.writeTo _ _ _

theorem clockVoices (h : c.InRange) : c.clockVoices.InRange := by
  obtain ⟨h0, h1, h2⟩ := forall_tone.mp h.tone
  exact { h with
    tone := forall_tone.mpr ⟨h0.clock, h1.clock, h2.clock⟩
    noise := h.noise.clock h2.clock.period_le }

theorem cycle (h : c.InRange) : c.cycle.InRange := by
  have hle := h.divider_le
  unfold Chip.cycle
  split
  · exact { h.clockVoices with
      divider_pos := show 1 ≤ prescale by decide
      divider_le := show prescale ≤ 16 by decide }
  · exact { h with
      divider_pos := show 1 ≤ c.divider - 1 by omega
      divider_le := show c.divider - 1 ≤ 16 by omega }

theorem advance (h : c.InRange) (n : Nat) : (c.advance n).InRange := by
  induction n generalizing c with
  | zero => exact h
  | succ n ih => exact ih h.cycle

theorem renderSamples (h : c.InRange) (samples : Array Int) (cycles count : Nat) :
    (SoundDevice.renderSamples c samples cycles count).1.InRange := by
  rw [fst_renderSamples]
  exact h.advance _

theorem setMute (h : c.InRange) (index : Nat) (muted : Bool) : (c.setMute index muted).InRange := by
  unfold Chip.setMute
  split
  · exact { h with }
  · exact h

theorem reset (c : Chip) : c.reset.InRange :=
  { powerOn with }

/-- Every operation keeps the ranges. -/
theorem apply (h : c.InRange) (op : Operation) : (c.apply op).InRange := by
  cases op with
  | write byte => exact h.write byte
  | advance cycles => exact h.advance cycles
  | render cycles count => exact h.renderSamples _ cycles count
  | reset => exact reset c
  | mute index muted => exact h.setMute index muted

/-- Every history keeps the ranges. -/
theorem run (h : c.InRange) (history : List Operation) : (c.run history).InRange := by
  induction history generalizing c with
  | nil => exact h
  | cons op rest ih => exact ih (h.apply op)

end InRange

end Chip

end Chiptune
