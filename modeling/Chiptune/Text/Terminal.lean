/-!
# Text — Terminal control

What a text looks like when it does not go to a terminal.  Control sequences and control characters
are taken out (`plain`); blanks and line ends stay, even those inside a control sequence.

A sequence starts with an escape character.  What follows tells its kind, and the kind tells where
it ends: a control sequence (`[`) at its first letter or sign from `@` on, a command to the terminal
(`]`) at a bell, a hidden string (`X`, `^`, `_`) at a string terminator.  A device string (`P`) is a
hidden string behind parameters of its own.  Every sequence ends at the next escape character and
when it is cancelled.
-/

namespace Chiptune
namespace Text

/-- The kind of sequence a text is in the middle of. -/
inductive Sequence where
  /-- None: ordinary text. -/
  | ordinary
  /-- After an escape character. -/
  | escape
  /-- After an escape character and signs that select a character set. -/
  | selection
  | control
  | command
  /-- At the start of a device string. -/
  | device
  /-- In the numbers in front of a device string. -/
  | deviceNumbers
  /-- In the signs in front of a device string. -/
  | deviceSigns
  | hidden
  deriving DecidableEq

/-- The escape character, which starts a sequence anywhere. -/
def escapeChar : Char := Char.ofNat 0x1B

/-- The characters that cancel a sequence. -/
def isCancel (c : Char) : Bool :=
  c.toNat == 0x18 || c.toNat == 0x1A

/-- Whether a character ends a hidden string: the string terminator is a byte, and every character
counts that has it in its encoding. -/
def isTerminator (c : Char) : Bool :=
  (String.utf8EncodeChar c).contains 0x9C

/-- A blank other than a space. -/
def isLayout (c : Char) : Bool :=
  c == '\t' || c == '\n' || c == '\r' || c.toNat == 0x0C

/-- Whether ordinary text shows a character: all but control characters. -/
def isShown (c : Char) : Bool :=
  isLayout c || (0x20 ≤ c.toNat && c.toNat != 0x7F)

namespace Sequence

/-- The kind of sequence that a character behind an escape character begins; a letter without a kind
of its own is a whole sequence. -/
def ofIntroducer (c : Char) : Sequence :=
  if c.toNat < 0x20 ∨ 0x7F ≤ c.toNat then escape
  else if c.toNat < 0x30 then selection
  else if c = '[' then control
  else if c = ']' then command
  else if c = 'P' then device
  else if c = 'X' ∨ c = '^' ∨ c = '_' then hidden
  else ordinary

/-- Where a device string goes on at a character in front of its text: `low` are the signs from the
blank on, `middle` the digits and separators, `high` the signs behind them, and from `@` on the text
begins. -/
def inDevice (s low middle high : Sequence) (c : Char) : Sequence :=
  if c.toNat < 0x20 ∨ 0x7F ≤ c.toNat then s
  else if c.toNat < 0x30 then low
  else if c.toNat < 0x3C then middle
  else if c.toNat < 0x40 then high
  else hidden

/-- Where a text is after one more character. -/
def next (s : Sequence) (c : Char) : Sequence :=
  if c = escapeChar then escape
  else if isCancel c then ordinary
  else
    match s with
    | ordinary => ordinary
    | escape => ofIntroducer c
    | selection => if 0x30 ≤ c.toNat ∧ c.toNat < 0x7F then ordinary else selection
    | control => if 0x40 ≤ c.toNat ∧ c.toNat < 0x7F then ordinary else control
    | command => if c.toNat = 7 then ordinary else command
    | device => inDevice device deviceSigns deviceNumbers deviceNumbers c
    | deviceNumbers => inDevice deviceNumbers deviceSigns deviceNumbers hidden c
    | deviceSigns => inDevice deviceSigns deviceSigns hidden hidden c
    | hidden => if isTerminator c then ordinary else hidden

/-- Whether a character is shown where a text is. -/
def shows (s : Sequence) (c : Char) : Bool :=
  match s with
  | ordinary => isShown c
  | escape | selection | control => isLayout c
  | command | device | deviceNumbers | deviceSigns | hidden => false

end Sequence

/-- The characters of a text that are shown.  Once a character is shown (`showing`), all that follow
are, up to the next that ordinary text does not show; only there a sequence goes on that a blank has
interrupted, unless a character beyond ASCII has ended it. -/
def plainFrom (showing : Bool) (s : Sequence) : List Char → List Char
  | [] => []
  | c :: rest =>
    if showing && isShown c then
      c :: plainFrom true (if 0x80 ≤ c.toNat then .ordinary else s) rest
    else if !showing && s.shows c then c :: plainFrom true (s.next c) rest
    else plainFrom false (s.next c) rest

/-- The text without control sequences and control characters. -/
def plain (text : String) : String :=
  String.ofList (plainFrom true .ordinary text.toList)

/-- The text with every line but the first moved in by so many blanks. -/
def indentRest (width : Nat) (text : String) : String :=
  String.ofList
    (text.toList.flatMap fun c => if c = '\n' then '\n' :: List.replicate width ' ' else [c])

end Text
end Chiptune
