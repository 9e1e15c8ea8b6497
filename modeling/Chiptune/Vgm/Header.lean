import Chiptune.Bytes.LittleEndian
import Chiptune.Error
import Chiptune.Json.Basic

/-!
# VGM — Header

The first sixty-four bytes of an image.  Every field has a fixed position and is stored lowest byte
first; offsets are stored relative to their own position, and zero means there is none.  `read`
accepts an image that is long enough, starts with the magic, and has its commands inside;
`parse` wants a clock as well.
-/

namespace Chiptune

/-- The rate all songs are timed in, in samples per second. -/
def sampleRate : Nat := 44100

/-- How long a number of samples plays, in seconds. -/
def secondsOf (samples : Nat) : Binary32 :=
  Binary32.ofNat samples / Binary32.ofNat sampleRate

/-- Chip cycles in one sample at a given clock, without the remainder. -/
def cyclesPerSample (clock : Nat) : Nat :=
  clock / sampleRate

/-- The first four bytes of an image. -/
def imageMagic : List UInt8 := [0x56, 0x67, 0x6D, 0x20]

/-- Where the commands start when the header does not say. -/
def defaultDataOffset : Nat := 0x40

/-- The header of a song. -/
structure Header where
  /-- Format version, a decimal digit in every four bits. -/
  version : Nat
  /-- Length of the file as declared. -/
  fileLength : Nat
  /-- Clock of the chip in Hz, without the flag bits. -/
  clock : Nat
  /-- A second chip is wanted. -/
  dualChip : Bool
  /-- The T6W28 variant of the chip is wanted. -/
  t6w28 : Bool
  /-- Position of the tags. -/
  gd3Offset : Option Nat
  totalSamples : Nat
  loopOffset : Option Nat
  loopSamples : Nat
  /-- Recording rate in Hz, zero if unknown. -/
  rate : Nat
  /-- Feedback pattern of the noise, zero if unknown. -/
  feedback : Nat
  /-- Width of the noise register, zero if unknown. -/
  shiftWidth : Nat
  flags : Nat
  /-- Position of the first command. -/
  dataOffset : Nat
  deriving DecidableEq

namespace Header

/-- The clock field without its two flag bits. -/
def maskClock (field : Nat) : Nat :=
  field % Nat.pow 2 30

/-- A stored offset resolved against the position of its field. -/
def resolve (position field : Nat) : Option Nat :=
  if field = 0 then none else some (position + field)

/-- The fields at their positions. -/
def fields (data : ByteArray) : Header where
  version := leWord data 0x08 4
  fileLength := leWord data 0x04 4 + 0x04
  clock := maskClock (leWord data 0x0C 4)
  dualChip := (leWord data 0x0C 4).testBit 30
  t6w28 := (leWord data 0x0C 4).testBit 31
  gd3Offset := resolve 0x14 (leWord data 0x14 4)
  totalSamples := leWord data 0x18 4
  loopOffset := resolve 0x1C (leWord data 0x1C 4)
  loopSamples := leWord data 0x20 4
  rate := leWord data 0x24 4
  feedback := leWord data 0x28 2
  shiftWidth := leWord data 0x2A 1
  flags := leWord data 0x2B 1
  dataOffset := (resolve 0x34 (leWord data 0x34 4)).getD defaultDataOffset

/-- The header of an image, whether or not it declares a clock. -/
def read (data : ByteArray) : Except Error Header :=
  if data.size < headerSize then .error (.invalidImage (.tooSmall data.size))
  else if hasBytesAt data 0 imageMagic then
    let header := fields data
    if header.dataOffset < data.size then .ok header
    else .error (.invalidImage (.dataOffsetPastEnd header.dataOffset data.size))
  else .error (.invalidImage .noMagic)

/-- A header that is good for playing: it declares a clock. -/
def requireClock (header : Header) : Except Error Header :=
  if header.clock = 0 then .error .missingClock else .ok header

/-- The header of an image that can be played. -/
def parse (data : ByteArray) : Except Error Header :=
  (read data).bind requireClock

/-- The version as major and minor number. -/
def versionText (header : Header) : String :=
  Text.hexLower 1 (header.version / 256) ++ "." ++ Text.hexLower 2 (header.version % 256)

/-- How long the declared samples play, in seconds. -/
def duration (header : Header) : Binary32 :=
  secondsOf header.totalSamples

/-! ### Output -/

/-- The fields by their names, in order. -/
def members (header : Header) : List (String × Json) :=
  [("version", .nat header.version),
    ("file_length", .nat header.fileLength),
    ("sn76489_clock", .nat header.clock),
    ("dual_chip", .bool header.dualChip),
    ("t6w28", .bool header.t6w28),
    ("gd3_offset", .optionNat header.gd3Offset),
    ("total_samples", .nat header.totalSamples),
    ("loop_offset", .optionNat header.loopOffset),
    ("loop_samples", .nat header.loopSamples),
    ("rate", .nat header.rate),
    ("sn76489_feedback", .nat header.feedback),
    ("sn76489_shift_width", .nat header.shiftWidth),
    ("sn76489_flags", .nat header.flags),
    ("data_offset", .nat header.dataOffset)]

/-- The header as a JSON object. -/
def toJson (header : Header) : Json :=
  .obj header.members

/-- An offset that may be missing, as the log shows it. -/
def offsetNote : Option Nat → String
  | some offset => s!"Some({offset})"
  | none => "None"

/-- The header on one line, as the log shows it. -/
def describe (header : Header) : String :=
  s!"VgmHeader \x7b version: {header.version}, file_length: {header.fileLength}, " ++
    s!"sn76489_clock: {header.clock}, dual_chip: {header.dualChip}, t6w28: {header.t6w28}, " ++
    s!"gd3_offset: {offsetNote header.gd3Offset}, total_samples: {header.totalSamples}, " ++
    s!"loop_offset: {offsetNote header.loopOffset}, loop_samples: {header.loopSamples}, " ++
    s!"rate: {header.rate}, sn76489_feedback: {header.feedback}, " ++
    s!"sn76489_shift_width: {header.shiftWidth}, sn76489_flags: {header.flags}, " ++
    s!"data_offset: {header.dataOffset} \x7d"

end Header

end Chiptune
