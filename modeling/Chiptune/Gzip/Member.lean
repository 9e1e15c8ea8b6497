import Chiptune.Bytes.Source
import Chiptune.Gzip.Checksum
import Chiptune.Gzip.Inflate

/-!
# Gzip — Members

A gzip member is a header, compressed data, and a trailer with the check value and the length of
what was compressed.  Only the first member of an input counts; what follows it is ignored.

The compressed data comes in a part at a time (`partSize`), and the decompressed bytes go out a
window at a time (`windowSize`).  They are handed over when the window is full or the part is used
up (`memberSource`), so corrupt data takes with it what the same part has put into the same window;
what can be decompressed of an input that breaks off is handed over.
-/

namespace Chiptune
namespace Gzip

/-- The first two bytes of a member. -/
def magic : List UInt8 := [0x1F, 0x8B]

/-- Whether an input starts like a gzip member. -/
def isGzip (data : ByteArray) : Bool :=
  hasBytesAt data 0 magic

/-- Bytes handed over at a time, which is also as far back as a copy can reach. -/
def windowSize : Nat := 32768

/-- Bytes of the input that come in at a time, counted from its start. -/
def partSize : Nat := 32768

/-! ### Header -/

/-- The longest name or comment, without the zero byte that ends it. -/
def maxTextLength : Nat := 65535

/-- The position after a text that ends with a zero byte, of at most so many bytes. -/
def skipText (data : ByteArray) : Nat → Nat → Except GzipFault Nat
  | allowed, offset =>
    match data[offset]? with
    | none => .error .unexpectedEnd
    | some b =>
      if b = 0 then .ok (offset + 1)
      else
        match allowed with
        | 0 => .error .longField
        | allowed + 1 => skipText data allowed (offset + 1)

/-- The position after a part of the header that is there only if its flag is set. -/
def optionalPart (flags flag : Nat) (part : Nat → Except GzipFault Nat) (offset : Nat) :
    Except GzipFault Nat :=
  if flags / flag % 2 = 1 then part offset else .ok offset

/-- The extra field: its length in two bytes, then as many bytes. -/
def skipExtra (data : ByteArray) (offset : Nat) : Except GzipFault Nat :=
  if data.size < offset + 2 then .error .unexpectedEnd
  else
    let stop := offset + 2 + leWord data offset 2
    if data.size < stop then .error .unexpectedEnd else .ok stop

/-- The check value of the header: the low half of that of the bytes before it. -/
def checkHeader (data : ByteArray) (offset : Nat) : Except GzipFault Nat :=
  if data.size < offset + 2 then .error .unexpectedEnd
  else if leWord data offset 2 = Checksum.ofBytes (data.extract 0 offset) % 65536 then
    .ok (offset + 2)
  else .error .checksumMismatch

/-- The position of the compressed data. -/
def dataStart (data : ByteArray) : Except GzipFault Nat :=
  let flags := byteAt data 3
  if data.size < 10 then .error .unexpectedEnd
  else if byteAt data 2 ≠ 8 ∨ 32 ≤ flags then .error .badHeader
  else do
    let offset ← optionalPart flags 4 (skipExtra data) 10
    let offset ← optionalPart flags 8 (skipText data maxTextLength) offset
    let offset ← optionalPart flags 16 (skipText data maxTextLength) offset
    optionalPart flags 2 (checkHeader data) offset

/-! ### Decompression -/

/-- The check value and the count of the bytes handed over so far. -/
structure Tally where
  checksum : UInt32
  count : Nat

/-- Nothing handed over. -/
def Tally.zero : Tally := ⟨Checksum.start, 0⟩

/-- More bytes handed over. -/
def Tally.add (t : Tally) (bytes : ByteArray) : Tally :=
  ⟨Checksum.updateAll t.checksum bytes, t.count + bytes.size⟩

/-- The end of a member whose compressed data ends at a position: the trailer must be there and
agree with the tally. -/
def trailer (data : ByteArray) (position : Nat) (tally : Tally) : ByteSource GzipFault :=
  let offset := (position + 7) / 8
  if data.size < offset + 8 then .failed .unexpectedEnd
  else if leWord data offset 4 = Checksum.value tally.checksum ∧
      leWord data (offset + 4) 4 = tally.count % Nat.pow 2 32 then
    .finished
  else .failed .checksumMismatch

/-- A member in the middle of being handed over. -/
structure Delivery where
  inflater : Inflater
  /-- So many bytes of the inflater's output have been handed over. -/
  handed : Nat
  /-- The window ends behind so many bytes of the inflater's output. -/
  windowEnd : Nat
  /-- So many bytes of the input have come in. -/
  arrived : Nat
  tally : Tally

namespace Delivery

/-- The start of the delivery of a member whose compressed data starts at an offset. -/
def start (offset : Nat) : Delivery where
  inflater := ⟨8 * offset, .empty, .header⟩
  handed := 0
  windowEnd := windowSize
  arrived := partSize
  tally := .zero

/-- What the inflater has put into the window and has not handed over. -/
def pending (s : Delivery) : ByteArray :=
  s.inflater.output.extract s.handed s.windowEnd

/-- The delivery with the pending bytes handed over. -/
def handOver (s : Delivery) : Delivery :=
  { s with
    handed := min s.windowEnd s.inflater.output.size
    tally := s.tally.add s.pending }

/-- The delivery with the next window open; a window of the output before it is kept. -/
def openWindow (s : Delivery) : Delivery :=
  let dropped := s.windowEnd - windowSize
  { s with
    inflater :=
      { s.inflater with
        output := s.inflater.output.extract dropped s.inflater.output.size }
    handed := s.handed - dropped
    windowEnd := s.windowEnd - dropped + windowSize }

/-- The delivery with the next part of the input come in. -/
def takePart (s : Delivery) : Delivery :=
  { s with arrived := s.arrived + partSize }

end Delivery

/-- What is handed over of a member from a point on.  The fuel counts windows and parts. -/
def deliver (data : ByteArray) : Nat → Delivery → ByteSource GzipFault
  | 0, _ => .failed .incompleteStream
  | fuel + 1, s =>
    let input := Arrived.upTo data s.arrived
    match s.inflater.fill input s.windowEnd (8 * data.size + 1) with
    | (inflater, none) =>
      let s := { s with inflater := inflater }
      .chunk s.pending fun _ =>
        let s := s.handOver
        if inflater.isFinished then trailer data inflater.position s.tally
        else deliver data fuel s.openWindow
    | (inflater, some .incompleteStream) =>
      let s := { s with inflater := inflater }
      .chunk s.pending fun _ =>
        if input.isWhole then .failed .incompleteStream
        else deliver data fuel s.handOver.takePart
    | (_, some fault) => .failed fault

/-- The decompressed bytes of the first member of an input. -/
def memberSource (data : ByteArray) : ByteSource GzipFault :=
  match dataStart data with
  | .error fault => .failed fault
  | .ok offset => deliver data (9 * data.size + 2) (.start offset)

/-! ### Seeing through the container -/

/-- The most bytes a decompressed input may have: 64 MiB. -/
def maxSize : Nat := 64 * 1024 * 1024

/-- The bytes of a source, unless they are more than allowed. -/
def gather (source : ByteSource GzipFault) : Except Error ByteArray :=
  match source.collect maxSize .empty with
  | .whole bytes => .ok bytes
  | .failed fault => .error (.decompression (.gzip fault))
  | .excess => .error (.decompression (.tooLarge maxSize))

/-- The input itself, or what is in it if it starts like a gzip member. -/
def unwrap (data : ByteArray) : Except Error ByteArray :=
  if isGzip data then gather (memberSource data) else .ok data

end Gzip
end Chiptune
