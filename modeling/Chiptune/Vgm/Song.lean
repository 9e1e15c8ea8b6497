import Chiptune.Gzip.Member
import Chiptune.Notice
import Chiptune.Vgm.Player

/-!
# VGM — Songs

A song is an image that can be played: decompressed if it came in a gzip container, with a header
that declares a clock (`Song.ofBytes`).  Rendering a song resets the device first, so that nothing
but host settings such as mutes reaches from earlier use into the samples (`Song.renderOn`).

What there is to report is worked out beside the result, from the same data.
-/

namespace Chiptune

/-- A playable image. -/
structure Song where
  header : Header
  /-- The decompressed image, header included. -/
  image : ByteArray

namespace Song

/-- The song in an image that is not in a container. -/
def ofImage (image : ByteArray) : Except Error Song :=
  (Header.parse image).map fun header => ⟨header, image⟩

/-- The song in the contents of a file. -/
def ofBytes (contents : ByteArray) : Except Error Song :=
  (Gzip.unwrap contents).bind ofImage

/-- The part of the image that holds commands. -/
def commands (song : Song) : ByteArray :=
  song.image.extract song.header.dataOffset song.image.size

variable {σ : Type} [SoundDevice σ]

/-- A player about to play the song on a device back at power-on. -/
def player (song : Song) (device : σ) : Player σ :=
  .start song.image song.header (SoundDevice.reset device)

/-- The song rendered on a device. -/
def renderOn (song : Song) (device : σ) : Except Error Rendering :=
  (song.player device).run.1

/-- The song rendered on a new chip. -/
def render (song : Song) : Except Error Rendering :=
  song.renderOn Chip.powerOn

end Song

/-- The header of the image in the contents of a file, whether or not it declares a clock. -/
def Header.ofBytes (contents : ByteArray) : Except Error Header :=
  (Gzip.unwrap contents).bind Header.read

/-! ### Reports -/

namespace Header

/-- What a header asks for that the emulated chip does not have. -/
def mismatches (header : Header) : List Notice :=
  (if header.feedback = 0 ∨ header.feedback = emulatedFeedback then []
    else [.otherFeedback header.feedback]) ++
  (if header.shiftWidth = 0 ∨ header.shiftWidth = emulatedWidth then []
    else [.otherWidth header.shiftWidth])

/-- What reading a header reports.  A wish for another chip is reported before the position of the
commands is checked, the rest only of a header that is accepted. -/
def notices (image : ByteArray) : List Notice :=
  let wish := fields image
  let chips := if wish.dualChip ∨ wish.t6w28 then [.otherChip wish.t6w28] else []
  match read image with
  | .ok header => chips ++ header.mismatches ++ [.header header]
  | .error (.invalidImage (.dataOffsetPastEnd _ _)) => chips
  | .error _ => []

end Header

/-- What looking for a container reports. -/
def Gzip.notices (contents : ByteArray) (unwrapped : Except Error ByteArray) : List Notice :=
  match unwrapped with
  | .ok image => if isGzip contents then [.decompressed contents.size image.size] else []
  | .error _ => []

/-- What reading the contents of a file reports, up to the header of the image in it. -/
def imageNotices (contents : ByteArray) (unwrapped : Except Error ByteArray) : List Notice :=
  Gzip.notices contents unwrapped ++
    match unwrapped with
    | .ok image => Header.notices image
    | .error _ => []

namespace Player

variable {σ : Type}

/-- What setting up a player reports: a chip too slow to advance at all. -/
def startNotices (header : Header) : List Notice :=
  if Chiptune.cyclesPerSample header.clock = 0 then [.slowClock header.clock] else []

/-- The samples all waits among some instructions ask for. -/
def waitTotal (instructions : List Instruction) : Nat :=
  instructions.foldl (fun total i =>
    match i.command with
    | .wait samples => total + samples
    | _ => total) 0

/-- The bytes some instructions write to the chip. -/
def writtenBytes (instructions : List Instruction) : List UInt8 :=
  instructions.filterMap fun i =>
    match i.command with
    | .write byte => some byte
    | _ => none

/-- What the last wait of a run reports if it asked for more samples than were left. -/
def clampNotice (p q : Player σ) (instructions : List Instruction) : List Notice :=
  match instructions.getLast?.map Instruction.command with
  | some (.wait samples) =>
    let overrun := p.samples.size + waitTotal instructions - p.target
    if overrun = 0 then [] else [.clampedWait samples q.cursor (samples - overrun)]
  | _ => []

/-- What a run from `p` to `q` with the given result reports.  The device reports the bytes written
to it as `announce` says; the run itself reports a wait that was cut short, an end marker that came
early, and the drift of a finished run. -/
def runNotices (announce : UInt8 → List Notice) (p q : Player σ)
    (result : Except Error Rendering) : List Notice :=
  let instructions := Instruction.listBetween p.image p.cursor q.cursor
  let walked := (writtenBytes instructions).flatMap announce ++ p.clampNotice q instructions
  match result with
  | .error _ => walked
  | .ok r =>
    let marker :=
      if r.endedByMarker ∧ r.samples.size < p.target then
        [.endMarker (q.cursor - 1) r.samples.size p.target]
      else []
    let time : ChipTime := ⟨r.chipCycles⟩
    walked ++ marker ++ [.drift (time.drift p.clock r.samples.size sampleRate) r.samples.size]

end Player

/-- The chip reports every byte. -/
def Chip.announce (byte : UInt8) : List Notice :=
  [.busWrite byte]

namespace Song

variable {σ : Type}

/-- What rendering a song reports, given how the run from the start of the song ended. -/
def renderNotices (announce : UInt8 → List Notice) (song : Song) (start : Player σ)
    (run : Except Error Rendering × Player σ) : List Notice :=
  let outcome := match run.1 with
    | .ok r => Notice.rendered r.samples.size r.executed
    | .error _ => .stopped run.2.samples.size song.header.totalSamples
  Player.startNotices song.header ++ start.runNotices announce run.2 run.1 ++ [outcome]

end Song

end Chiptune
