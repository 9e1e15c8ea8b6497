import Chiptune.Number.Binary32

/-!
# Number — Decimal

Decimal numbers as a digit string and a power of ten.  A decimal becomes a binary number by one
rounding (`Decimal.toBinary32`) or by way of the sixty-four-bit format
(`Decimal.toBinary32ViaDouble`), which rounds twice.  In the other direction `shortestDigits` finds
the fewest decimal digits that read back to the same binary number.
-/

namespace Chiptune

/-- The number `± digits * 10 ^ exponent`. -/
structure Decimal where
  negative : Bool
  digits : Nat
  exponent : Int
  deriving DecidableEq

/-- The decimal digits of a number, first to last. -/
def decimalDigits (n : Nat) : List Char :=
  Nat.toDigits 10 n

namespace Decimal

/-- Powers of ten beyond this one are out of reach of every format here: a decimal above it is
larger than all finite numbers, and one below its inverse is closer to zero than to any other. -/
def magnitudeBound : Nat := 400

/-- The exponent of the power of ten that follows the leading digit. -/
def magnitude (d : Decimal) : Int :=
  (decimalDigits d.digits).length + d.exponent

/-- The decimal as a quotient, once its size is known to be in bounds. -/
def ratio (d : Decimal) : Nat × Nat :=
  (d.digits * Nat.pow 10 d.exponent.toNat, Nat.pow 10 (-d.exponent).toNat)

/-- The thirty-two-bit number nearest to a decimal. -/
def toBinary32 (d : Decimal) : Binary32 :=
  if d.digits = 0 ∨ d.magnitude < -magnitudeBound then .zero d.negative
  else if magnitudeBound < d.magnitude then .infinity d.negative
  else .ofRatio d.negative d.ratio.1 d.ratio.2

/-- The thirty-two-bit number nearest to the sixty-four-bit number nearest to a decimal. -/
def toBinary32ViaDouble (d : Decimal) : Binary32 :=
  if d.digits = 0 ∨ d.magnitude < -magnitudeBound then .zero d.negative
  else if magnitudeBound < d.magnitude then .infinity d.negative
  else .ofDyadic d.negative (BinaryFormat.double.nearest d.ratio.1 d.ratio.2)

end Decimal

/-! ### The fewest digits -/

/-- The exponent `k` of the decade `10 ^ (k - 1) ≤ num / den < 10 ^ k`. -/
def decade (num den : Nat) : Int :=
  if den ≤ num then (decimalDigits (num / den)).length
  else
    let places := (decimalDigits (den / num)).length
    if num * Nat.pow 10 (places - 1) = den then 2 - (places : Int) else 1 - (places : Int)

/-- The multiples of `2 ^ (exponent - 2)` between which a decimal reads back to a mantissa and
exponent of the thirty-two-bit format: half a unit to either side, but a quarter below the first
mantissa of a higher exponent.  The ends belong to it when the mantissa is even. -/
structure ReadBack where
  low : Nat
  high : Nat
  closed : Bool
  deriving DecidableEq

/-- The interval of a number of the thirty-two-bit format. -/
def ReadBack.of (d : Dyadic) : ReadBack where
  low :=
    if d.mantissa = Nat.pow 2 23 ∧ d.exponent ≠ -149 then 4 * d.mantissa - 1
    else 4 * d.mantissa - 2
  high := 4 * d.mantissa + 2
  closed := d.mantissa % 2 == 0

/-- Whether `digits * 10 ^ place` lies in the interval of a number with the given exponent. -/
def ReadBack.contains (r : ReadBack) (exponent : Int) (digits : Nat) (place : Int) : Bool :=
  let value := digits * Nat.pow 10 place.toNat * Nat.pow 2 (2 - exponent).toNat
  let unit := Nat.pow 10 (-place).toNat * Nat.pow 2 (exponent - 2).toNat
  if r.closed then r.low * unit ≤ value && value ≤ r.high * unit
  else r.low * unit < value && value < r.high * unit

/-- The multiple of `10 ^ place` next to `d` that reads back to `d`, if either neighbour does; the
nearer one if both do, and as `tie` says if they are equally near. -/
def neighbour? (tie : Tie) (d : Dyadic) (place : Int) : Option Nat :=
  let num := d.num * Nat.pow 10 (-place).toNat
  let den := d.den * Nat.pow 10 place.toNat
  let below := num / den
  let interval := ReadBack.of d
  let lowHit := interval.contains d.exponent below place
  let highHit := interval.contains d.exponent (below + 1) place
  if lowHit && highHit then some (roundDiv tie num den)
  else if lowHit then some below
  else if highHit then some (below + 1)
  else none

/-- The digits without their last zeros, at most `fuel` of them, and the place of the last digit. -/
def stripZeros (digits : Nat) (place : Int) : Nat → Nat × Int
  | 0 => (digits, place)
  | fuel + 1 =>
    if digits % 10 = 0 then stripZeros (digits / 10) (place + 1) fuel else (digits, place)

/-- The fewest digits, and the place of the last of them, that read back to a positive number of the
thirty-two-bit format; among those the nearest, and as `tie` says of two equally near ones.  Nine
digits always suffice. -/
def shortestDigits (tie : Tie) (d : Dyadic) : Nat × Int :=
  let top := decade d.num d.den
  let tries := (List.range 9).map fun (k : Nat) => top - (k + 1 : Int)
  match tries.findSome? fun place => (neighbour? tie d place).map fun n => (n, place) with
  | some (digits, place) => stripZeros digits place 9
  | none => (d.num, 0)

end Chiptune
