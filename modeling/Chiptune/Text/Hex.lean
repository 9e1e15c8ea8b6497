/-!
# Text — Hexadecimal numerals

A number is written in base sixteen with the fewest digits, and zeros go in front when a least
width is asked for (`hexUpper`, `hexLower`).  Bytes are written as digit pairs and read back from
them (`hexOfBytes`, `bytesOfHex?`).
-/

namespace Chiptune.Text

/-- `digits`, with as many of `fill` in front as bring it to `width` characters. -/
def padLeft (width : Nat) (fill : Char) (digits : List Char) : List Char :=
  List.replicate (width - digits.length) fill ++ digits

/-- The text, with blanks after it up to `width` characters. -/
def padRight (width : Nat) (text : String) : String :=
  text ++ String.ofList (List.replicate (width - text.length) ' ')

/-- `n` in lower-case base sixteen, with at least `width` digits. -/
def hexLower (width n : Nat) : String :=
  String.ofList (padLeft width '0' (Nat.toDigits 16 n))

/-- `n` in upper-case base sixteen, with at least `width` digits. -/
def hexUpper (width n : Nat) : String :=
  String.ofList (padLeft width '0' ((Nat.toDigits 16 n).map Char.toUpper))

/-- The value of a hexadecimal digit of either case. -/
def hexDigit? (c : Char) : Option Nat :=
  if '0' ≤ c ∧ c ≤ '9' then some (c.toNat - '0'.toNat)
  else if 'a' ≤ c ∧ c ≤ 'f' then some (c.toNat - 'a'.toNat + 10)
  else if 'A' ≤ c ∧ c ≤ 'F' then some (c.toNat - 'A'.toNat + 10)
  else none

/-- The digit of a value below sixteen, in lower case. -/
def hexDigit (n : Nat) : Char :=
  Nat.digitChar (n % 16)

/-- Two lower-case digits for each byte. -/
def hexOfBytes (bytes : ByteArray) : String :=
  bytes.foldl (fun text b => (text.push (hexDigit (b.toNat / 16))).push (hexDigit b.toNat)) ""

/-- The bytes of a list of digit pairs, added after `acc`; a lone or foreign character has none. -/
def pushHex? (acc : ByteArray) : List Char → Option ByteArray
  | [] => some acc
  | [_] => none
  | hi :: lo :: rest =>
    match hexDigit? hi, hexDigit? lo with
    | some h, some l => pushHex? (acc.push (UInt8.ofNat (16 * h + l))) rest
    | _, _ => none

/-- The bytes written as digit pairs in `text`. -/
def bytesOfHex? (text : String) : Option ByteArray :=
  pushHex? ByteArray.empty text.toList

end Chiptune.Text
