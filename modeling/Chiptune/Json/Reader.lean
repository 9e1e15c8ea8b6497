import Chiptune.Json.Basic

/-!
# JSON — Reading

The value that a JSON text stands for (`Json.read?`).  A number without point and exponent that
fits a sixty-four-bit word, signed or not, is an integer; every other number is a decimal, and so
is `-0`, whose sign an integer would lose.
-/

namespace Chiptune
namespace Json

/-- The text after leading blanks. -/
def skipBlanks : List Char → List Char
  | [] => []
  | c :: rest =>
    if c = ' ' ∨ c = '\n' ∨ c = '\r' ∨ c = '\t' then skipBlanks rest else c :: rest

/-! ### Numbers -/

/-- The characters a number is made of. -/
def isNumberChar (c : Char) : Bool :=
  c.isDigit || c == '-' || c == '+' || c == '.' || c == 'e' || c == 'E'

/-- An integer literal as a value. -/
def ofIntegerLiteral (negative : Bool) (n : Nat) : Json :=
  if negative then
    if n = 0 ∨ Nat.pow 2 63 < n then .decimal ⟨true, n, 0⟩ else .int (-(n : Int))
  else if n < Nat.pow 2 64 then .int n
  else .decimal ⟨false, n, 0⟩

/-- A number literal: digits without needless zeros in front, then at most a point with digits
after it, then at most an exponent. -/
def readNumber? (literal : List Char) : Option Json :=
  let (negative, body) := match literal with
    | '-' :: r => (true, r)
    | r => (false, r)
  let (whole, rest) := spanDigits body
  if whole.isEmpty ∨ (whole.head? = some '0' ∧ whole.length ≠ 1) then none
  else
    match rest with
    | [] => some (ofIntegerLiteral negative (digitsValue whole))
    | '.' :: r =>
      if (spanDigits r).1.isEmpty then none else (readMagnitude? negative body).map .decimal
    | _ => (readMagnitude? negative body).map .decimal

/-! ### Strings -/

/-- The value of four hexadecimal digits. -/
def readUnit? (a b c d : Char) : Option Nat :=
  match Text.hexDigit? a, Text.hexDigit? b, Text.hexDigit? c, Text.hexDigit? d with
  | some a, some b, some c, some d => some (((a * 16 + b) * 16 + c) * 16 + d)
  | _, _, _, _ => none

/-- The character of an escape with one letter. -/
def shortEscape? : Char → Option Char
  | '"' => some '"'
  | '\\' => some '\\'
  | '/' => some '/'
  | 'b' => some (Char.ofNat 8)
  | 'f' => some (Char.ofNat 12)
  | 'n' => some '\n'
  | 'r' => some '\r'
  | 't' => some '\t'
  | _ => none

/-- The rest of a string literal after its opening quote.  `high` holds the first half of a
character written as two escapes, whose second half must follow at once. -/
def readString? (acc : String) (high : Option Nat) : List Char → Option (String × List Char)
  | '\\' :: 'u' :: a :: b :: c :: d :: rest =>
    match readUnit? a b c d, high with
    | none, _ => none
    | some unit, some h =>
      if 0xDC00 ≤ unit ∧ unit < 0xE000 then
        let code := 0x10000 + (h - 0xD800) * 0x400 + (unit - 0xDC00)
        readString? (acc.push (Char.ofNat code)) none rest
      else none
    | some unit, none =>
      if 0xD800 ≤ unit ∧ unit < 0xDC00 then readString? acc (some unit) rest
      else if 0xDC00 ≤ unit ∧ unit < 0xE000 then none
      else readString? (acc.push (Char.ofNat unit)) none rest
  | '\\' :: e :: rest =>
    match shortEscape? e, high with
    | some c, none => readString? (acc.push c) none rest
    | _, _ => none
  | '"' :: rest => if high.isSome then none else some (acc, rest)
  | c :: rest => if high.isSome ∨ c.toNat < 32 then none else readString? (acc.push c) none rest
  | [] => none

/-- A word that must stand at the start of the text. -/
def dropWord? : List Char → List Char → Option (List Char)
  | [], text => some text
  | c :: word, d :: text => if c = d then dropWord? word text else none
  | _ :: _, [] => none

/-! ### Values -/

mutual

/-- A value at the start of a text, and the text after it.  Every call that nests or goes on to
another part uses up fuel; twice the length of the text is always enough. -/
def readValue? : Nat → List Char → Option (Json × List Char)
  | 0, _ => none
  | fuel + 1, text =>
    match skipBlanks text with
    | '"' :: rest => (readString? "" none rest).map fun (s, rest) => (.str s, rest)
    | '[' :: rest =>
      match skipBlanks rest with
      | ']' :: rest => some (.arr [], rest)
      | _ => (readItems? fuel [] rest).map fun (items, rest) => (.arr items, rest)
    | '\x7b' :: rest =>
      match skipBlanks rest with
      | '\x7d' :: rest => some (.obj [], rest)
      | _ => (readMembers? fuel [] rest).map fun (members, rest) => (.obj members, rest)
    | 'n' :: rest => (dropWord? ['u', 'l', 'l'] rest).map fun rest => (.null, rest)
    | 't' :: rest => (dropWord? ['r', 'u', 'e'] rest).map fun rest => (.bool true, rest)
    | 'f' :: rest => (dropWord? ['a', 'l', 's', 'e'] rest).map fun rest => (.bool false, rest)
    | text =>
      let (literal, rest) := text.span isNumberChar
      (readNumber? literal).map fun number => (number, rest)

/-- The items of an array after its bracket, behind those read so far in reverse. -/
def readItems? : Nat → List Json → List Char → Option (List Json × List Char)
  | 0, _, _ => none
  | fuel + 1, done, text =>
    match readValue? fuel text with
    | none => none
    | some (item, rest) =>
      match skipBlanks rest with
      | ',' :: rest => readItems? fuel (item :: done) rest
      | ']' :: rest => some ((item :: done).reverse, rest)
      | _ => none

/-- The members of an object after its brace, behind those read so far in reverse. -/
def readMembers? : Nat → List (String × Json) → List Char →
    Option (List (String × Json) × List Char)
  | 0, _, _ => none
  | fuel + 1, done, text =>
    match skipBlanks text with
    | '"' :: rest =>
      match readString? "" none rest with
      | none => none
      | some (name, rest) =>
        match skipBlanks rest with
        | ':' :: rest =>
          match readValue? fuel rest with
          | none => none
          | some (value, rest) =>
            match skipBlanks rest with
            | ',' :: rest => readMembers? fuel ((name, value) :: done) rest
            | '\x7d' :: rest => some (((name, value) :: done).reverse, rest)
            | _ => none
        | _ => none
    | _ => none

end

/-- The value a text stands for, with nothing but blanks around it. -/
def read? (text : String) : Option Json :=
  let chars := text.toList
  match readValue? (2 * chars.length + 2) chars with
  | some (value, rest) => if (skipBlanks rest).isEmpty then some value else none
  | none => none

end Json
end Chiptune
