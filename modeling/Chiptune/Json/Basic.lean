import Chiptune.Number.Text

/-!
# JSON — Values and their text

A JSON value keeps integers apart from decimals, since a setting that wants an integer takes no
decimal.  A value is written on one line (`compact`) or with a line for every member (`pretty`).
-/

namespace Chiptune

/-- A JSON value; the members of an object are in the order they were written. -/
inductive Json where
  | null
  | bool (b : Bool)
  | int (i : Int)
  | decimal (d : Decimal)
  | single (x : Binary32)
  | str (s : String)
  | arr (items : List Json)
  | obj (members : List (String × Json))

namespace Json

instance : Inhabited Json := ⟨null⟩

/-- A natural as a value. -/
def nat (n : Nat) : Json := .int n

/-- A natural that may be missing. -/
def optionNat : Option Nat → Json
  | some n => .nat n
  | none => .null

/-- The last member of an object with a given name. -/
def member? (name : String) : Json → Option Json
  | .obj members => (members.reverse.find? fun m => m.1 == name).map Prod.snd
  | _ => none

/-! ### Text -/

/-- One character inside a string literal. -/
def writeChar (acc : String) (c : Char) : String :=
  match c with
  | '"' => acc ++ "\\\""
  | '\\' => acc ++ "\\\\"
  | '\n' => acc ++ "\\n"
  | '\r' => acc ++ "\\r"
  | '\t' => acc ++ "\\t"
  | c =>
    if c.toNat = 8 then acc ++ "\\b"
    else if c.toNat = 12 then acc ++ "\\f"
    else if c.toNat < 32 then acc ++ "\\u" ++ Text.hexLower 4 c.toNat
    else acc.push c

/-- A string literal, added to the text so far. -/
def writeString (acc : String) (s : String) : String :=
  (s.foldl writeChar (acc.push '"')).push '"'

/-- The text of a decimal: its digits and a power of ten. -/
def decimalText (d : Decimal) : String :=
  signed d.negative s!"{d.digits}e{d.exponent}"

/-- A value without parts, added to the text so far; what JSON has no number for is null. -/
def writeLeaf (acc : String) : Json → String
  | .bool true => acc ++ "true"
  | .bool false => acc ++ "false"
  | .int i => acc ++ toString i
  | .decimal d => acc ++ decimalText d
  | .single x => acc ++ x.jsonText?.getD "null"
  | .str s => writeString acc s
  | _ => acc ++ "null"

mutual

/-- A value on one line without blanks, added to the text so far. -/
def writeCompact (acc : String) : Json → String
  | .arr items => (writeItems (acc.push '[') true items).push ']'
  | .obj members => (writeMembers (acc.push '\x7b') true members).push '\x7d'
  | leaf => writeLeaf acc leaf

/-- Items with commas between them. -/
def writeItems (acc : String) (first : Bool) : List Json → String
  | [] => acc
  | item :: rest => writeItems (writeCompact (if first then acc else acc.push ',') item) false rest

/-- Members with commas between them. -/
def writeMembers (acc : String) (first : Bool) : List (String × Json) → String
  | [] => acc
  | (name, value) :: rest =>
    let acc := writeString (if first then acc else acc.push ',') name
    writeMembers (writeCompact (acc.push ':') value) false rest

end

/-- A value on one line without blanks. -/
def compact (j : Json) : String :=
  writeCompact "" j

/-- A new line with two blanks for each level. -/
def newLine (acc : String) (depth : Nat) : String :=
  acc ++ "\n" ++ String.ofList (List.replicate (2 * depth) ' ')

mutual

/-- A value with a line for each part of a container, added to the text so far. -/
def writePretty (acc : String) (depth : Nat) : Json → String
  | .arr [] => acc ++ "[]"
  | .obj [] => acc ++ "\x7b\x7d"
  | .arr items => (newLine (prettyItems (acc.push '[') (depth + 1) true items) depth).push ']'
  | .obj members =>
    (newLine (prettyMembers (acc.push '\x7b') (depth + 1) true members) depth).push '\x7d'
  | leaf => writeLeaf acc leaf

/-- Items on lines of their own. -/
def prettyItems (acc : String) (depth : Nat) (first : Bool) : List Json → String
  | [] => acc
  | item :: rest =>
    let acc := newLine (if first then acc else acc.push ',') depth
    prettyItems (writePretty acc depth item) depth false rest

/-- Members on lines of their own. -/
def prettyMembers (acc : String) (depth : Nat) (first : Bool) : List (String × Json) → String
  | [] => acc
  | (name, value) :: rest =>
    let acc := writeString (newLine (if first then acc else acc.push ',') depth) name
    prettyMembers (writePretty (acc ++ ": ") depth value) depth false rest

end

/-- A value with a line for each part of a container and two blanks for each level. -/
def pretty (j : Json) : String :=
  writePretty "" 0 j

end Json

end Chiptune
