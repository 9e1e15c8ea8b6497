import Chiptune.Bytes.LittleEndian
import Chiptune.Error

/-!
# Gzip — Bits and prefix codes

Compressed data is a string of bits, the lowest bit of each byte first, of which a part may not have
come in yet (`Arrived`).  Numbers of a fixed width are read as a whole (`takeBits?`); symbols are
coded by canonical prefix codes, in which the codes
of one length follow each other in the order of their symbols, so the lengths alone determine the
code (`PrefixCode.ofLengths?`) and a symbol is read bit by bit with one count per length
(`PrefixCode.readSymbol`).
-/

namespace Chiptune

/-- Compressed data as far as it has come in: the bytes in front of `stop`. -/
structure Arrived where
  data : ByteArray
  stop : Nat
  stop_le : stop ≤ data.size

namespace Arrived

/-- The data that has come in when all in front of an offset has. -/
def upTo (data : ByteArray) (offset : Nat) : Arrived :=
  ⟨data, min offset data.size, Nat.min_le_right offset data.size⟩

/-- Whether there is nothing more to come. -/
def isWhole (input : Arrived) : Bool :=
  input.stop == input.data.size

/-- The byte at an offset. -/
def byteAt? (input : Arrived) (offset : Nat) : Option UInt8 :=
  if h : offset < input.stop then
    some (input.data.get offset (Nat.lt_of_lt_of_le h input.stop_le))
  else none

/-- The bit at a position. -/
def bitAt? (input : Arrived) (position : Nat) : Option Nat :=
  (input.byteAt? (position / 8)).map fun byte => (byte.toNat >>> (position % 8)) % 2

/-- The number in the `width` bits from a position on, lowest first, for a width of at most
sixteen. -/
def takeBits? (input : Arrived) (position width : Nat) : Option Nat :=
  if position + width ≤ 8 * input.stop then
    some ((leWord input.data (position / 8) 3 >>> (position % 8)) % Nat.pow 2 width)
  else none

end Arrived

/-- The longest code of a symbol, in bits. -/
def maxCodeLength : Nat := 15

/-- A canonical prefix code. -/
structure PrefixCode where
  /-- The number of codes of each length, from length one up to the longest in use. -/
  counts : List Nat
  /-- The symbols in the order of their codes. -/
  symbols : Array Nat

namespace PrefixCode

/-- How many codes of the longest length are left when codes of the given lengths are taken, if the
lengths fit; `free` codes are left of the length before. -/
def remaining? (free : Nat) : List Nat → Option Nat
  | [] => some free
  | count :: rest => if count ≤ 2 * free then remaining? (2 * free - count) rest else none

/-- The symbols with codes of a given length. -/
def symbolsOfLength (lengths : Array Nat) (length : Nat) : List Nat :=
  (List.range lengths.size).filter fun symbol => lengths[symbol]? == some length

/-- The counts of the lengths up to the longest in use, or of length one alone if none is: a reader
of codes takes at least a bit, and none past the longest code. -/
def usedCounts (counts : List Nat) : List Nat :=
  counts.take 1 ++ ((counts.drop 1).reverse.dropWhile (· == 0)).reverse

/-- The code with the given length for each symbol, zero for none, and how many codes of the longest
length it leaves unused; the codes must not be too many for their lengths. -/
def build? (lengths : Array Nat) : Option (PrefixCode × Nat) :=
  let groups := (List.range maxCodeLength).map fun k => symbolsOfLength lengths (k + 1)
  let counts := groups.map List.length
  (remaining? 1 counts).map fun free =>
    (⟨usedCounts counts, groups.flatten.toArray⟩, free)

/-- The code with given lengths, which must leave none unused. -/
def complete? (lengths : Array Nat) : Option PrefixCode :=
  match build? lengths with
  | some (code, 0) => some code
  | _ => none

/-- Whether a code has no symbol at all, or a single one with a single bit. -/
def isMinimal (code : PrefixCode) : Bool :=
  code.symbols.isEmpty || (code.symbols.size == 1 && code.counts.head? == some 1)

/-- The code with given lengths, which must leave none unused, or be as small as a code can be. -/
def ofLengths? (lengths : Array Nat) : Option PrefixCode :=
  match build? lengths with
  | some (code, free) => if free = 0 ∨ code.isMinimal then some code else none
  | none => none

/-- Read on in a code: `code` is what the bits so far say, of the codes of this length the first is
`first`, and its symbol is the one at `index`. -/
def readFrom (input : Arrived) (symbols : Array Nat) (position code first index : Nat) :
    List Nat → Except GzipFault (Nat × Nat)
  | [] => .error .corruptStream
  | count :: rest =>
    match input.bitAt? position with
    | none => .error .incompleteStream
    | some bit =>
      let code := code + bit
      if code < first + count then
        match symbols[index + (code - first)]? with
        | some symbol => .ok (symbol, position + 1)
        | none => .error .corruptStream
      else
        readFrom input symbols (position + 1) (2 * code) (2 * (first + count)) (index + count) rest

/-- The symbol coded at a position, and the position after it. -/
def readSymbol (code : PrefixCode) (input : Arrived) (position : Nat) :
    Except GzipFault (Nat × Nat) :=
  readFrom input code.symbols position 0 0 0 code.counts

end PrefixCode

end Chiptune
