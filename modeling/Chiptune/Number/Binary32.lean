import Chiptune.Number.Rounding

/-!
# Number — Binary32

Thirty-two-bit floating-point numbers, kept as their bits.  `value` reads the bits; every
operation forms the exact result of the values and rounds it once to the nearest number of the
format (`ofRatio`), a tie going to the even mantissa.
-/

namespace Chiptune

/-- A thirty-two-bit floating-point number. -/
structure Binary32 where
  bits : UInt32
  deriving DecidableEq

namespace Binary32

/-- What the bits of a number mean. -/
inductive Value where
  | nan
  | infinite (negative : Bool)
  | finite (negative : Bool) (magnitude : Dyadic)
  deriving DecidableEq

/-- Whether the sign bit is set. -/
def signBit (x : Binary32) : Bool :=
  x.bits.toNat / Nat.pow 2 31 == 1

/-- The meaning of the bits: sign, eight bits of exponent, twenty-three of fraction. -/
def value (x : Binary32) : Value :=
  let fraction : Nat := x.bits.toNat % Nat.pow 2 23
  let exponent : Nat := x.bits.toNat / Nat.pow 2 23 % Nat.pow 2 8
  if exponent = 255 then
    if fraction = 0 then .infinite x.signBit else .nan
  else if exponent = 0 then .finite x.signBit ⟨fraction, -149⟩
  else .finite x.signBit ⟨Nat.pow 2 23 + fraction, (exponent : Int) - 150⟩

/-- The bits of infinity without a sign. -/
def infinityBits : Nat := 0x7F800000

/-- The number with the given sign and the magnitude written in `bits`. -/
def ofMagnitudeBits (negative : Bool) (bits : Nat) : Binary32 :=
  ⟨UInt32.ofNat ((if negative then Nat.pow 2 31 else 0) + bits)⟩

/-- Not a number. -/
def nan : Binary32 := ⟨0x7FC00000⟩

/-- Infinity of either sign. -/
def infinity (negative : Bool) : Binary32 :=
  ofMagnitudeBits negative infinityBits

/-- Zero of either sign. -/
def zero (negative : Bool) : Binary32 :=
  ofMagnitudeBits negative 0

/-- The number nearest to `± num / den`; a magnitude too large for the format is infinite.  A full
mantissa carries its leading bit into the exponent field, which makes the two fields one sum. -/
def ofRatio (negative : Bool) (num den : Nat) : Binary32 :=
  let d := BinaryFormat.single.nearest num den
  ofMagnitudeBits negative
    (min infinityBits ((d.exponent + 149).toNat * Nat.pow 2 23 + d.mantissa))

/-- The number nearest to `± d`. -/
def ofDyadic (negative : Bool) (d : Dyadic) : Binary32 :=
  ofRatio negative d.num d.den

/-- The number nearest to an integer. -/
def ofInt (i : Int) : Binary32 :=
  ofRatio (decide (i < 0)) i.natAbs 1

/-- The number nearest to a natural. -/
def ofNat (n : Nat) : Binary32 :=
  ofRatio false n 1

/-! ### Arithmetic -/

/-- The number with its sign bit flipped. -/
def neg (x : Binary32) : Binary32 :=
  ⟨x.bits ^^^ 0x80000000⟩

/-- Product. -/
def mul (x y : Binary32) : Binary32 :=
  match x.value, y.value with
  | .nan, _ => nan
  | _, .nan => nan
  | .infinite s, .infinite t => infinity (s ^^ t)
  | .infinite s, .finite t b => if b.mantissa = 0 then nan else infinity (s ^^ t)
  | .finite s a, .infinite t => if a.mantissa = 0 then nan else infinity (s ^^ t)
  | .finite s a, .finite t b =>
    ofDyadic (s ^^ t) ⟨a.mantissa * b.mantissa, a.exponent + b.exponent⟩

/-- Quotient. -/
def div (x y : Binary32) : Binary32 :=
  match x.value, y.value with
  | .nan, _ => nan
  | _, .nan => nan
  | .infinite _, .infinite _ => nan
  | .infinite s, .finite t _ => infinity (s ^^ t)
  | .finite s _, .infinite t => zero (s ^^ t)
  | .finite s a, .finite t b =>
    if b.mantissa = 0 then if a.mantissa = 0 then nan else infinity (s ^^ t)
    else ofRatio (s ^^ t) (a.num * b.den) (a.den * b.num)

/-- The integer that `± d` is of the unit `2 ^ unit`, for a unit not above that of `d`. -/
def scaled (negative : Bool) (d : Dyadic) (unit : Int) : Int :=
  let n : Int := (d.mantissa * Nat.pow 2 (d.exponent - unit).toNat : Nat)
  if negative then -n else n

/-- Sum; a sum of exactly zero is negative only if both terms are. -/
def add (x y : Binary32) : Binary32 :=
  match x.value, y.value with
  | .nan, _ => nan
  | _, .nan => nan
  | .infinite s, .infinite t => if s = t then infinity s else nan
  | .infinite s, .finite _ _ => infinity s
  | .finite _ _, .infinite t => infinity t
  | .finite s a, .finite t b =>
    let unit := min a.exponent b.exponent
    let sum := scaled s a unit + scaled t b unit
    if sum = 0 then zero (s && t) else ofDyadic (decide (sum < 0)) ⟨sum.natAbs, unit⟩

/-- Difference. -/
def sub (x y : Binary32) : Binary32 :=
  x.add y.neg

instance : Add Binary32 := ⟨add⟩
instance : Sub Binary32 := ⟨sub⟩
instance : Mul Binary32 := ⟨mul⟩
instance : Div Binary32 := ⟨div⟩
instance : Neg Binary32 := ⟨neg⟩
instance (n : Nat) : OfNat Binary32 n := ⟨ofNat n⟩

/-! ### Comparison with zero -/

/-- Neither infinite nor not a number. -/
def isFinite (x : Binary32) : Bool :=
  match x.value with
  | .finite _ _ => true
  | _ => false

/-- Above zero. -/
def isPositive (x : Binary32) : Bool :=
  match x.value with
  | .nan => false
  | .infinite s => !s
  | .finite s d => !s && d.mantissa != 0

/-- Below zero. -/
def isNegative (x : Binary32) : Bool :=
  match x.value with
  | .nan => false
  | .infinite s => s
  | .finite s d => s && d.mantissa != 0

/-! ### Integers from numbers -/

/-- An integer from a number: the magnitude goes to a natural by `round`, the result is held
between `low` and `high`, and what is not a number gives zero. -/
def toInt (round : Nat → Nat → Nat) (low high : Int) (x : Binary32) : Int :=
  match x.value with
  | .nan => 0
  | .infinite s => if s then low else high
  | .finite s d =>
    let n : Int := round d.num d.den
    max low (min high (if s then -n else n))

/-- The integer part, held between `low` and `high`. -/
def truncate (low high : Int) (x : Binary32) : Int :=
  x.toInt (· / ·) low high

/-- The nearest integer, a half going away from zero, held between `low` and `high`. -/
def round (low high : Int) (x : Binary32) : Int :=
  x.toInt (roundDiv .upward) low high

end Binary32

end Chiptune
