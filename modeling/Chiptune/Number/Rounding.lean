/-!
# Number — Rounding

Quotients of naturals rounded to the nearest natural (`roundDiv`) and to the nearest number of a
binary floating-point format (`BinaryFormat.nearest`).  Every inexact operation of the library
computes its exact result as a quotient and then rounds it once with one of the two.
-/

namespace Chiptune

/-- Which neighbour a value halfway between two naturals goes to. -/
inductive Tie where
  | toEven
  | upward
  deriving DecidableEq

/-- `num / den` rounded to the nearest natural. -/
def roundDiv (tie : Tie) (num den : Nat) : Nat :=
  let low := num / den
  let twice := 2 * (num % den)
  if twice < den then low
  else if den < twice then low + 1
  else
    match tie with
    | .upward => low + 1
    | .toEven => low + low % 2

/-- A non-negative number `mantissa * 2 ^ exponent`. -/
structure Dyadic where
  mantissa : Nat
  exponent : Int
  deriving DecidableEq

namespace Dyadic

/-- The numerator of the number as a quotient. -/
def num (d : Dyadic) : Nat :=
  d.mantissa * Nat.pow 2 d.exponent.toNat

/-- The denominator of the number as a quotient. -/
def den (d : Dyadic) : Nat :=
  Nat.pow 2 (-d.exponent).toNat

theorem den_pos (d : Dyadic) : 0 < d.den :=
  Nat.two_pow_pos _

end Dyadic

/-- A binary floating-point format: the bits of a mantissa and the exponent of the smallest
number. -/
structure BinaryFormat where
  precision : Nat
  minExponent : Int
  deriving DecidableEq

/-- The thirty-two-bit format. -/
def BinaryFormat.single : BinaryFormat := ⟨24, -149⟩

/-- The sixty-four-bit format. -/
def BinaryFormat.double : BinaryFormat := ⟨53, -1074⟩

/-- The exponent of the largest power of two not above `num / den`. -/
def floorLog2 (num den : Nat) : Int :=
  let guess : Int := (num.log2 : Int) - den.log2
  if num * Nat.pow 2 (-guess).toNat < den * Nat.pow 2 guess.toNat then guess - 1 else guess

/-- The number of the format nearest to `num / den`, a tie going to the even mantissa.  The mantissa
fills the precision unless the exponent is the least one; rounding up may make it a power of two
one bit longer.  There is no largest exponent here. -/
def BinaryFormat.nearest (format : BinaryFormat) (num den : Nat) : Dyadic :=
  if num = 0 then ⟨0, format.minExponent⟩
  else
    let exponent := max (floorLog2 num den - (format.precision - 1 : Nat)) format.minExponent
    ⟨roundDiv .toEven (num * Nat.pow 2 (-exponent).toNat) (den * Nat.pow 2 exponent.toNat),
      exponent⟩

/-! ### Small laws -/

/-- A quotient without remainder is not rounded. -/
theorem roundDiv_mul_right (tie : Tie) (n : Nat) {den : Nat} (h : 0 < den) :
    roundDiv tie (n * den) den = n := by
  unfold roundDiv
  simp only [Nat.mul_mod_left, Nat.mul_div_left n h, Nat.mul_zero, h, ↓reduceIte]

end Chiptune
