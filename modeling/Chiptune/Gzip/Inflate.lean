import Chiptune.Gzip.Huffman

/-!
# Gzip — Inflate

Compressed data is a row of blocks, the last of them marked.  A block is stored as it is or coded
with two prefix codes, one for literals and lengths and one for distances; both are fixed, or
written in front of the block, themselves coded.  Whatever the stage, the
compressed data is taken a piece at a time (`Inflate.readPiece`), and a piece adds a token to the
output: a byte, a copy of earlier output, or nothing.  The inflater (`Inflater`) keeps the output it
may still have to copy from, and `Inflater.fill` runs it until it has a given amount of output.
-/

namespace Chiptune

/-- The two codes of a block. -/
structure BlockCodes where
  literals : PrefixCode
  distances : PrefixCode

/-- What comes next in the compressed data. -/
inductive InflateStage where
  /-- The header of a block. -/
  | header
  /-- So many bytes of a stored block. -/
  | stored (left : Nat) (last : Bool)
  /-- A symbol of a coded block. -/
  | coded (codes : BlockCodes) (last : Bool)
  /-- Nothing: the last block is over. -/
  | finished

/-- What a piece of the compressed data adds to the output. -/
inductive Token where
  | byte (value : UInt8)
  /-- The output again, from a distance back. -/
  | copy (distance length : Nat)

/-- A piece of the compressed data: what it adds, where it ends, and what comes after it. -/
structure Piece where
  token : Option Token
  position : Nat
  stage : InflateStage

namespace Inflate

/-! ### Lengths and distances -/

/-- The shortest length of each length symbol and the bits that are added to it. -/
def lengthTable : Array (Nat × Nat) :=
  #[(3, 0), (4, 0), (5, 0), (6, 0), (7, 0), (8, 0), (9, 0), (10, 0), (11, 1), (13, 1), (15, 1),
    (17, 1), (19, 2), (23, 2), (27, 2), (31, 2), (35, 3), (43, 3), (51, 3), (59, 3), (67, 4),
    (83, 4), (99, 4), (115, 4), (131, 5), (163, 5), (195, 5), (227, 5), (258, 0)]

/-- The shortest distance of each distance symbol and the bits that are added to it. -/
def distanceTable : Array (Nat × Nat) :=
  #[(1, 0), (2, 0), (3, 0), (4, 0), (5, 1), (7, 1), (9, 2), (13, 2), (17, 3), (25, 3), (33, 4),
    (49, 4), (65, 5), (97, 5), (129, 6), (193, 6), (257, 7), (385, 7), (513, 8), (769, 8),
    (1025, 9), (1537, 9), (2049, 10), (3073, 10), (4097, 11), (6145, 11), (8193, 12),
    (12289, 12), (16385, 13), (24577, 13)]

/-- The value of a symbol with extra bits, and the position after them. -/
def readExtra (input : Arrived) (position : Nat) (table : Array (Nat × Nat)) (symbol : Nat) :
    Except GzipFault (Nat × Nat) :=
  match table[symbol]? with
  | none => .error .corruptStream
  | some (base, width) =>
    match input.takeBits? position width with
    | none => .error .incompleteStream
    | some extra => .ok (base + extra, position + width)

/-- Repeat the output from a distance back, a byte at a time, so that a copy may run into itself. -/
def copyBack (output : ByteArray) (distance : Nat) : Nat → ByteArray
  | 0 => output
  | count + 1 =>
    if h : output.size - distance < output.size then
      copyBack (output.push output[output.size - distance]) distance count
    else output

/-! ### Codes of a block -/

/-- The lengths of the fixed literal code. -/
def fixedLiteralLengths : Array Nat :=
  Array.replicate 144 8 ++ Array.replicate 112 9 ++ Array.replicate 24 7 ++ Array.replicate 8 8

/-- The lengths of the fixed distance code. -/
def fixedDistanceLengths : Array Nat :=
  Array.replicate 32 5

/-- The symbol that ends a block, which every block must have a code for. -/
def endOfBlock : Nat := 256

/-- The most literal and length symbols of a block with codes of its own. -/
def maxLiterals : Nat := 286

/-- The most distance symbols of a block with codes of its own. -/
def maxDistances : Nat := 30

/-- The codes of given lengths. -/
def codesOf (literals distances : Array Nat) : Except GzipFault BlockCodes :=
  if literals[endOfBlock]? = some 0 then .error .corruptStream
  else
    match PrefixCode.ofLengths? literals, PrefixCode.ofLengths? distances with
    | some literals, some distances => .ok ⟨literals, distances⟩
    | _, _ => .error .corruptStream

/-- The order in which the lengths of the length code are written. -/
def lengthOrder : List Nat :=
  [16, 17, 18, 0, 8, 7, 9, 6, 10, 5, 11, 4, 12, 3, 13, 2, 14, 1, 15]

/-- The three-bit lengths of the length code, for the symbols in the given order. -/
def readLengthCode (input : Arrived) (position : Nat) (lengths : Array Nat) :
    List Nat → Except GzipFault (Array Nat × Nat)
  | [] => .ok (lengths, position)
  | symbol :: rest =>
    match input.takeBits? position 3 with
    | none => .error .incompleteStream
    | some length =>
      readLengthCode input (position + 3) (lengths.setIfInBounds symbol length) rest

/-- What a symbol of the length code adds: the length, its least count, and the width of what is
added to the count. -/
def lengthRun? (lengths : Array Nat) (symbol : Nat) : Option (Nat × Nat × Nat) :=
  match symbol with
  | 16 => lengths.back?.map fun previous => (previous, 3, 2)
  | 17 => some (0, 3, 3)
  | 18 => some (0, 11, 7)
  | length => some (length, 1, 0)

/-- The lengths of both codes, behind those read so far, until there are `total`; every symbol adds
at least one. -/
def readLengths (code : PrefixCode) (input : Arrived) (total : Nat) :
    Nat → Nat → Array Nat → Except GzipFault (Array Nat × Nat)
  | 0, position, lengths =>
    if lengths.size = total then .ok (lengths, position) else .error .corruptStream
  | fuel + 1, position, lengths =>
    if total ≤ lengths.size then
      if lengths.size = total then .ok (lengths, position) else .error .corruptStream
    else
      match code.readSymbol input position with
      | .error fault => .error fault
      | .ok (symbol, position) =>
        match lengthRun? lengths symbol with
        | none => .error .corruptStream
        | some (length, least, width) =>
          match input.takeBits? position width with
          | none => .error .incompleteStream
          | some extra =>
            readLengths code input total fuel (position + width)
              (lengths ++ Array.replicate (least + extra) length)

/-- The codes written in front of a block, and the position after them. -/
def readCodes (input : Arrived) (position : Nat) : Except GzipFault (BlockCodes × Nat) :=
  match input.takeBits? position 14 with
  | none => .error .incompleteStream
  | some sizes =>
    let literalCount := sizes % 32 + 257
    let distanceCount := sizes / 32 % 32 + 1
    let orderCount := sizes / 1024 + 4
    if maxLiterals < literalCount ∨ maxDistances < distanceCount then .error .corruptStream
    else
      match readLengthCode input (position + 14) (Array.replicate 19 0)
          (lengthOrder.take orderCount) with
      | .error fault => .error fault
      | .ok (codeLengths, position) =>
        match PrefixCode.complete? codeLengths with
        | none => .error .corruptStream
        | some code =>
          let total := literalCount + distanceCount
          match readLengths code input total total position #[] with
          | .error fault => .error fault
          | .ok (lengths, position) =>
            (codesOf (lengths.extract 0 literalCount) (lengths.extract literalCount total)).map
              fun codes => (codes, position)

/-! ### Pieces -/

/-- The stage after a block. -/
def afterBlock (last : Bool) : InflateStage :=
  if last then .finished else .header

/-- The header of a block: one bit marks the last block, two bits give its kind. -/
def readHeader (input : Arrived) (position : Nat) : Except GzipFault Piece :=
  match input.takeBits? position 3 with
  | none => .error .incompleteStream
  | some bits =>
    let last := bits % 2 == 1
    let position := position + 3
    match bits / 2 with
    | 0 =>
      let aligned := (position + 7) / 8 * 8
      match input.takeBits? aligned 16, input.takeBits? (aligned + 16) 16 with
      | some size, some complement =>
        if size + complement = 0xFFFF then
          .ok ⟨none, aligned + 32, if size = 0 then afterBlock last else .stored size last⟩
        else .error .corruptStream
      | _, _ => .error .incompleteStream
    | 1 =>
      (codesOf fixedLiteralLengths fixedDistanceLengths).map fun codes =>
        ⟨none, position, .coded codes last⟩
    | 2 =>
      (readCodes input position).map fun (codes, position) => ⟨none, position, .coded codes last⟩
    | _ => .error .corruptStream

/-- A byte of a stored block. -/
def readStored (input : Arrived) (position left : Nat) (last : Bool) : Except GzipFault Piece :=
  match input.byteAt? (position / 8) with
  | none => .error .incompleteStream
  | some byte =>
    .ok ⟨some (.byte byte), position + 8,
      if left ≤ 1 then afterBlock last else .stored (left - 1) last⟩

/-- A symbol of a coded block: a byte, the end of the block, or a copy. -/
def readCoded (input : Arrived) (position : Nat) (codes : BlockCodes) (last : Bool) :
    Except GzipFault Piece :=
  match codes.literals.readSymbol input position with
  | .error fault => .error fault
  | .ok (symbol, position) =>
    if symbol < 256 then
      .ok ⟨some (.byte (UInt8.ofNat symbol)), position, .coded codes last⟩
    else if symbol = endOfBlock then .ok ⟨none, position, afterBlock last⟩
    else
      match readExtra input position lengthTable (symbol - 257) with
      | .error fault => .error fault
      | .ok (length, position) =>
        match codes.distances.readSymbol input position with
        | .error fault => .error fault
        | .ok (symbol, position) =>
          (readExtra input position distanceTable symbol).map fun (distance, position) =>
            ⟨some (.copy distance length), position, .coded codes last⟩

/-- The next piece at a stage; when the last block is over there is none, and nothing changes. -/
def readPiece (input : Arrived) (position : Nat) : InflateStage → Except GzipFault Piece
  | .header => readHeader input position
  | .stored left last => readStored input position left last
  | .coded codes last => readCoded input position codes last
  | .finished => .ok ⟨none, position, .finished⟩

end Inflate

/-- An inflater in the middle of its input. -/
structure Inflater where
  /-- The next bit of the input. -/
  position : Nat
  /-- The latest output. -/
  output : ByteArray
  stage : InflateStage

namespace Inflater

open Inflate

/-- Whether the last block is over. -/
def isFinished (s : Inflater) : Bool :=
  match s.stage with
  | .finished => true
  | _ => false

/-- Whether a token copies from output that is there. -/
def fits (size : Nat) : Option Token → Bool
  | some (.copy distance _) => decide (distance ≤ size)
  | _ => true

/-- The output with a token added. -/
def put (output : ByteArray) : Option Token → ByteArray
  | none => output
  | some (.byte value) => output.push value
  | some (.copy distance length) => copyBack output distance length

/-- Run until the output is full, with `goal` bytes or a little more, or the last block is over, or
something is wrong; what was put out before a fault is kept.  Output of `goal` bytes does not stop
the inflater before the next piece that adds to it: a fault in front of that piece is still found.
Every piece takes at least a bit of the input, so its length in bits is fuel enough. -/
def fill (input : Arrived) (goal : Nat) : Nat → Inflater → Inflater × Option GzipFault
  | 0, s => (s, none)
  | fuel + 1, s =>
    if goal < s.output.size || s.isFinished then (s, none)
    else
      match readPiece input s.position s.stage with
      | .error fault => (s, some fault)
      | .ok piece =>
        if fits s.output.size piece.token = false then (s, some .corruptStream)
        else if goal ≤ s.output.size && piece.token.isSome then (s, none)
        else
          fill input goal fuel
            { position := piece.position
              output := put s.output piece.token
              stage := piece.stage }

end Inflater

end Chiptune
