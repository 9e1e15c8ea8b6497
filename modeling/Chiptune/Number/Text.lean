import Chiptune.Number.Decimal
import Chiptune.Text.Hex

/-!
# Number — Text

The texts of a binary32 number: its shortest digits written out in full (`Binary32.plainText`), its
shortest digits with an exponent where they would become long (`Binary32.jsonText`), and its exact
value rounded to a number of places (`Binary32.fixedText`).  In the other direction `readDecimal?`
takes the text of a decimal number apart.
-/

namespace Chiptune

/-- Digits with a decimal point so many places from their right end, with zeros filled in where
there are too few digits; without places there is no point. -/
def pointedDigits (digits : List Char) (places : Nat) : List Char :=
  if places = 0 then digits
  else
    let filled := Text.padLeft (places + 1) '0' digits
    filled.take (filled.length - places) ++ '.' :: filled.drop (filled.length - places)

/-- `digits * 10 ^ place` written out without an exponent. -/
def positionalText (digits : Nat) (place : Int) : String :=
  String.ofList
    (pointedDigits (decimalDigits digits ++ List.replicate place.toNat '0') (-place).toNat)

/-- The sign of a number in front of its text. -/
def signed (negative : Bool) (text : String) : String :=
  if negative then "-" ++ text else text

/-- `num / den` to a number of places, a tie going to the even digit. -/
def fixedPlaces (places num den : Nat) : String :=
  String.ofList (pointedDigits (decimalDigits (roundDiv .toEven (num * Nat.pow 10 places) den)) places)

/-- Where a layout with exponents writes a number positionally: the leading digit stands for a power
of ten within these bounds. -/
structure PositionalRange where
  low : Int
  high : Int

/-- Numbers in JSON are positional from a millionth up to twelve zeros after the leading digit. -/
def jsonPositional : PositionalRange := ⟨-6, 12⟩

/-- `digits * 10 ^ place` as a JSON number that is not an integer literal: positional with at least
one place, or one digit before the point and a signed exponent. -/
def jsonDecimal (digits : Nat) (place : Int) : String :=
  let written := decimalDigits digits
  let leading : Int := written.length - 1 + place
  if jsonPositional.low ≤ leading ∧ leading ≤ jsonPositional.high then
    positionalText digits place ++ (if 0 ≤ place then ".0" else "")
  else
    String.ofList (pointedDigits written (written.length - 1)) ++
      (if leading < 0 then s!"e-{leading.natAbs}" else s!"e+{leading.natAbs}")

namespace Binary32

/-- The shortest digits without an exponent, as messages show a number; of two equally near digit
strings they have the greater magnitude. -/
def plainText (x : Binary32) : String :=
  match x.value with
  | .nan => "NaN"
  | .infinite s => signed s "inf"
  | .finite s d =>
    if d.mantissa = 0 then signed s "0"
    else
      let (digits, place) := shortestDigits .upward d
      signed s (positionalText digits place)

/-- The number as JSON writes it, with the even one of two equally near digit strings; there is no
JSON for what is not finite. -/
def jsonText? (x : Binary32) : Option String :=
  match x.value with
  | .finite s d =>
    if d.mantissa = 0 then some (signed s "0.0")
    else
      let (digits, place) := shortestDigits .toEven d
      some (signed s (jsonDecimal digits place))
  | _ => none

/-- The exact value to a number of places. -/
def fixedText (places : Nat) (x : Binary32) : String :=
  match x.value with
  | .nan => "NaN"
  | .infinite s => signed s "inf"
  | .finite s d => signed s (fixedPlaces places d.num d.den)

end Binary32

/-! ### Reading -/

/-- The number written by decimal digits alone. -/
def digitsValue (digits : List Char) : Nat :=
  digits.foldl (fun n c => 10 * n + (c.toNat - '0'.toNat)) 0

/-- The leading digits of a text and the rest of it. -/
def spanDigits (text : List Char) : List Char × List Char :=
  text.span Char.isDigit

/-- The exponent part of a decimal, `e` or `E`, a sign if wanted, and digits up to the end of the
text; an empty text is the exponent zero. -/
def readExponent? : List Char → Option Int
  | [] => some 0
  | e :: rest =>
    if e = 'e' ∨ e = 'E' then
      let (negative, digits) := match rest with
        | '-' :: r => (true, r)
        | '+' :: r => (false, r)
        | r => (false, r)
      if digits.isEmpty ∨ !digits.all Char.isDigit then none
      else some (if negative then -(digitsValue digits : Int) else digitsValue digits)
    else none

/-- A decimal without a sign: digits with at most one point among or around them, then an
exponent. -/
def readMagnitude? (negative : Bool) (text : List Char) : Option Decimal :=
  let (whole, rest) := spanDigits text
  let (fraction, rest) := match rest with
    | '.' :: r => spanDigits r
    | r => ([], r)
  if whole.isEmpty ∧ fraction.isEmpty then none
  else
    (readExponent? rest).map fun exponent =>
      ⟨negative, digitsValue (whole ++ fraction), exponent - fraction.length⟩

/-- A number written with an optional sign: a decimal, or one of the words for infinity and for what
is not a number, in letters of either case. -/
def readBinary32? (text : String) : Option Binary32 :=
  let (negative, body) := match text.toList with
    | '-' :: r => (true, r)
    | '+' :: r => (false, r)
    | r => (false, r)
  let word := String.ofList (body.map Char.toLower)
  if word = "inf" ∨ word = "infinity" then some (.infinity negative)
  else if word = "nan" then some .nan
  else (readMagnitude? negative body).map Decimal.toBinary32

end Chiptune
