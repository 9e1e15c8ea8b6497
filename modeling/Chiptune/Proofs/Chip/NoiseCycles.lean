import Chiptune.Proofs.Chip.Ranges
import Mathlib.Data.FinEnum
import Mathlib.Data.Nat.ModEq
import Mathlib.Dynamics.PeriodicPts.Lemmas
import Mathlib.Tactic.NormNum.Prime

/-!
# Chip — Noise cycles

How long the shift register takes to come back to where it was.

* `shift_injective`: no two registers shift to the same one, since a shift is linear in exclusive or
  and takes no register but zero to zero.
* `iterate_sixteen`: sixteen shifts give back the register itself, or for white noise the register
  and its third shift put together.
* `iterate_double`: doubling both numbers of shifts in such a law keeps it.  So the laws for large
  powers of two follow from the one for sixteen (`iterate_white_two_pow`), and thousands of shifts
  come down to some dozens.
* `minimalPeriod_periodic`, `minimalPeriod_white`: from the seed it takes 16 shifts of periodic and
  57337 of white noise, and no fewer.
* `iterate_eq_iterate_iff_modEq`: the steps of an injective map that lead to one place are apart by
  whole cycles; so `cycle_lengths` says when any two numbers of shifts lead to one register.

The white cycle is not the longest there is for sixteen bits.  Its length is 7 * 8191 with both
factors prime, so a shorter one would have at most one of them, and 7 and 8191 shifts of the seed do
not give the seed.
-/

namespace Chiptune

open Function (Injective Bijective Semiconj₂ IsPeriodicPt minimalPeriod iterate_add_apply
  iterate_succ_apply)

namespace ShiftRegister

/-! ### A shift takes different registers to different ones -/

theorem feedback_xor (white : Bool) (r s : ShiftRegister) :
    feedback white (r ^^^ s) = (feedback white r ^^ feedback white s) := by
  rw [feedback, feedback, feedback, BitVec.getLsbD_xor, BitVec.getLsbD_xor,
    Bool.and_xor_distrib_left, Bool.xor_assoc, Bool.xor_assoc, Bool.xor_left_comm (s.getLsbD 0)]

/-- A shift is linear: it takes registers put together to their shifts put together. -/
theorem shift_xor (white : Bool) : Semiconj₂ (shift white) (· ^^^ ·) (· ^^^ ·) := by
  intro r s
  show shift white (r ^^^ s) = shift white r ^^^ shift white s
  refine BitVec.eq_of_getLsbD_eq fun i hi => ?_
  rw [BitVec.getLsbD_xor, getLsbD_shift white _ hi, getLsbD_shift white r hi,
    getLsbD_shift white s hi, feedback_xor, BitVec.getLsbD_xor]
  split <;> rfl

theorem shift_injective (white : Bool) : Injective (shift white) := by
  intro r s h
  by_contra hne
  have hxor : shift white (r ^^^ s) = shift white r ^^^ shift white s := shift_xor white r s
  have hzero : shift white (r ^^^ s) = 0#16 := by rw [hxor, h, BitVec.xor_self]
  exact shift_ne_zero white (mt BitVec.xor_eq_zero_iff.mp hne) hzero

theorem shift_bijective (white : Bool) : Bijective (shift white) :=
  Finite.injective_iff_bijective.mp (shift_injective white)

/-- A register after some shifts, each with or without white feedback. -/
def shiftAll (r : ShiftRegister) (whites : List Bool) : ShiftRegister :=
  whites.foldl (fun r white => shift white r) r

theorem shiftAll_injective (whites : List Bool) : Injective (shiftAll · whites) := by
  induction whites with
  | nil => exact Function.injective_id
  | cons white rest ih => exact ih.comp (shift_injective white)

/-! ### Many shifts at once -/

/-- Until it is shifted out, a bit moves down one place with every shift. -/
theorem getLsbD_iterate_shift (white : Bool) (r : ShiftRegister) {i k : Nat} (h : i + k < 16) :
    ((shift white)^[k] r).getLsbD i = r.getLsbD (i + k) := by
  induction k generalizing r with
  | zero => rfl
  | succ k ih =>
      rw [iterate_succ_apply, ih (shift white r) (by omega), getLsbD_shift white r (by omega),
        if_neg (by omega)]
      rfl

/-- A bit that is the `i`-th after `k` shifts is the `k`-th after `i`. -/
theorem getLsbD_iterate_comm (white : Bool) (r : ShiftRegister) {i k : Nat} (hi : i < 16)
    (hk : k < 16) : ((shift white)^[k] r).getLsbD i = ((shift white)^[i] r).getLsbD k := by
  rcases Nat.le_total i k with h | h
  · have hsplit : k = (k - i) + i := by omega
    have hplace : i + (k - i) = k := by omega
    conv_lhs => rw [hsplit, iterate_add_apply, getLsbD_iterate_shift white _ (by omega), hplace]
  · have hsplit : i = (i - k) + k := by omega
    have hplace : k + (i - k) = i := by omega
    conv_rhs => rw [hsplit, iterate_add_apply, getLsbD_iterate_shift white _ (by omega), hplace]

/-- Sixteen shifts give the register back; those of white noise put its third shift to it. -/
theorem iterate_sixteen (white : Bool) (r : ShiftRegister) :
    (shift white)^[16] r = r ^^^ (if white then (shift white)^[3] r else 0#16) := by
  refine BitVec.eq_of_getLsbD_eq fun i hi => ?_
  -- bit `i` comes in at the top with the shift after the first `i`, and has moved down since
  have hsplit : (shift white)^[16] r =
      (shift white)^[15 - i] (shift white ((shift white)^[i] r)) := by
    rw [← Function.iterate_succ_apply' (shift white), ← iterate_add_apply]
    exact congrArg (fun k => (shift white)^[k] r) (by omega)
  have htop : i + (15 - i) = 15 := by omega
  have hbit : ((shift white)^[i] r).getLsbD 0 = r.getLsbD i := by
    rw [getLsbD_iterate_comm white r (by omega) hi]
    rfl
  rw [hsplit, getLsbD_iterate_shift white _ (by omega), htop, getLsbD_shift white _ (by omega),
    if_pos rfl, feedback, hbit, getLsbD_iterate_comm white r (by omega) hi, BitVec.getLsbD_xor]
  cases white with
  | true => rfl
  | false => rw [if_neg Bool.false_ne_true, BitVec.getLsbD_zero, Bool.false_and]

theorem iterate_periodic_sixteen (r : ShiftRegister) : (shift false)^[16] r = r := by
  rw [iterate_sixteen, if_neg Bool.false_ne_true, BitVec.xor_zero]

/-- If some shifts put a register and fewer of its shifts together, then so do twice as many: what
is in the middle of the square is there two times, and cancels. -/
theorem iterate_double {white : Bool} {many few : Nat}
    (h : ∀ r, (shift white)^[many] r = r ^^^ (shift white)^[few] r) (r : ShiftRegister) :
    (shift white)^[2 * many] r = r ^^^ (shift white)^[2 * few] r := by
  have hlinear : ∀ s, (shift white)^[many] (r ^^^ s) =
      (shift white)^[many] r ^^^ (shift white)^[many] s := (shift_xor white).iterate many r
  have hcancel : ∀ a b : ShiftRegister, a ^^^ (a ^^^ b) = b := fun a b => by
    rw [← BitVec.xor_assoc, BitVec.xor_self, BitVec.zero_xor]
  calc (shift white)^[2 * many] r
      = (shift white)^[many] ((shift white)^[many] r) := by rw [Nat.two_mul, iterate_add_apply]
    _ = (r ^^^ (shift white)^[few] r) ^^^
          ((shift white)^[few] r ^^^ (shift white)^[few] ((shift white)^[few] r)) := by
        rw [h r, hlinear, h r, h ((shift white)^[few] r)]
    _ = r ^^^ (shift white)^[2 * few] r := by
        rw [Nat.two_mul few, iterate_add_apply, BitVec.xor_assoc, hcancel]

theorem iterate_white_two_pow (i : Nat) (r : ShiftRegister) :
    (shift true)^[2 ^ i * 16] r = r ^^^ (shift true)^[2 ^ i * 3] r := by
  induction i generalizing r with
  | zero => exact iterate_sixteen true r
  | succ i ih =>
      rw [Nat.pow_succ', Nat.mul_assoc, Nat.mul_assoc]
      exact iterate_double ih r

/-! ### Cycles from the seed -/

/-- Two numbers of steps of an injective map lead to the same place if they are apart by whole
cycles. -/
theorem iterate_eq_iterate_iff_modEq {α : Type} {f : α → α} (hf : Injective f) (x : α)
    (j k : Nat) : f^[j] x = f^[k] x ↔ j ≡ k [MOD minimalPeriod f x] := by
  wlog h : j ≤ k generalizing j k
  · rw [eq_comm, Nat.ModEq.comm]
    exact this k j (Nat.le_of_not_le h)
  obtain ⟨extra, rfl⟩ := Nat.exists_eq_add_of_le' h
  rw [eq_comm, Function.iterate_add_eq_iterate hf, Nat.modEq_iff_dvd' h, Nat.add_sub_cancel]
  exact Function.isPeriodicPt_iff_minimalPeriod_dvd

theorem minimalPeriod_periodic : minimalPeriod (shift false) seed = 16 := by
  have htwo : Fact (Nat.Prime 2) := ⟨Nat.prime_two⟩
  have height : ¬ IsPeriodicPt (shift false) (2 ^ 3) seed := by
    show ¬ (shift false)^[8] seed = seed
    decide
  exact Function.minimalPeriod_eq_prime_pow height (iterate_periodic_sixteen seed)

theorem iterate_white_8192 : (shift true)^[8192] seed = 0x1CB9#16 :=
  (iterate_white_two_pow 9 seed).trans (by decide +kernel)

theorem iterate_white_65536 : (shift true)^[65536] seed = 0x5C39#16 := by
  calc (shift true)^[65536] seed
      = seed ^^^ (shift true)^[4096 + 8192] seed := iterate_white_two_pow 12 seed
    _ = seed ^^^ (shift true)^[4096] 0x1CB9#16 := by rw [iterate_add_apply, iterate_white_8192]
    _ = seed ^^^ (0x1CB9#16 ^^^ (shift true)^[768] 0x1CB9#16) :=
        congrArg (seed ^^^ ·) (iterate_white_two_pow 8 _)
    _ = 0x5C39#16 := by decide +kernel

/-- The seed comes back after 57337 shifts of white noise: 8192 shifts and 7 more lead to the same
register from there as from the seed. -/
theorem isPeriodicPt_white : IsPeriodicPt (shift true) (7 * 8191) seed := by
  have hfar : (shift true)^[7 + 8192] ((shift true)^[7 * 8191] seed) = 0x5C39#16 := by
    rw [← iterate_add_apply]
    exact iterate_white_65536
  have hnear : (shift true)^[7 + 8192] seed = 0x5C39#16 := by
    rw [iterate_add_apply, iterate_white_8192]
    decide
  exact (shift_injective true).iterate (7 + 8192) (hfar.trans hnear.symm)

theorem minimalPeriod_white : minimalPeriod (shift true) seed = 7 * 8191 := by
  have hprime : Nat.Prime 7 ∧ Nat.Prime 8191 := by norm_num
  have hseven : ¬ IsPeriodicPt (shift true) 7 seed := by
    show ¬ (shift true)^[7] seed = seed
    decide
  have hmany : ¬ IsPeriodicPt (shift true) 8191 seed := by
    intro h
    have hnext : (shift true)^[8192] seed = shift true seed := by
      rw [Function.iterate_succ_apply', h.eq]
    rw [iterate_white_8192] at hnext
    exact absurd hnext (by decide)
  rw [Function.isPeriodicPt_iff_minimalPeriod_dvd] at hseven hmany
  obtain ⟨a, b, ha, hb, hperiod⟩ := Nat.dvd_mul.mp isPeriodicPt_white.minimalPeriod_dvd
  rw [← hperiod] at hseven hmany ⊢
  rcases (Nat.dvd_prime hprime.1).mp ha with rfl | rfl
  · exact absurd (by rwa [Nat.one_mul]) hmany
  · rcases (Nat.dvd_prime hprime.2).mp hb with rfl | rfl
    · exact absurd (Nat.dvd_refl 7) hseven
    · rfl

/-- **Cycle lengths.**  From the seed, two numbers of shifts lead to the same register if and only
if they are apart by a multiple of 57337 for white noise, and of 16 for periodic noise; from any
register, 16 shifts of periodic noise lead back.  With either feedback every register is the shift
of one register and of no other, so two registers that are shifted alike, with the feedback
switched at any time, are the same at the end only if they were the same at the start. -/
theorem cycle_lengths :
    (∀ j k, (shift true)^[j] seed = (shift true)^[k] seed ↔ j ≡ k [MOD 57337]) ∧
    (∀ j k, (shift false)^[j] seed = (shift false)^[k] seed ↔ j ≡ k [MOD 16]) ∧
    (∀ r, (shift false)^[16] r = r) ∧
    (∀ white, Bijective (shift white)) ∧
    ∀ whites r s, shiftAll r whites = shiftAll s whites ↔ r = s := by
  refine ⟨fun j k => ?_, fun j k => ?_, iterate_periodic_sixteen, shift_bijective,
    fun whites r s => (shiftAll_injective whites).eq_iff⟩
  · rw [iterate_eq_iterate_iff_modEq (shift_injective true), minimalPeriod_white]
  · rw [iterate_eq_iterate_iff_modEq (shift_injective false), minimalPeriod_periodic]

end ShiftRegister

end Chiptune
