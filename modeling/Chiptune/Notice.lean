import Chiptune.Chip.Bus
import Chiptune.Text.Terminal
import Chiptune.Vgm.Header

/-!
# Notice — What is reported along the way

Besides a result, an operation can have things to report: a header that asks for another chip, a
wait cut short, a byte written to the chip.  A notice is what happened, with its data; its
importance (`Notice.level`), its place in the program (`Notice.source`) and its words
(`Notice.message`) follow from it.
-/

namespace Chiptune

/-- How important a notice is. -/
inductive Level where
  | warn
  | info
  | debug
  | trace
  deriving DecidableEq

namespace Level

/-- The number of a level, the most important first. -/
def rank : Level → Nat
  | warn => 1
  | info => 2
  | debug => 3
  | trace => 4

/-- The name of a level in the log. -/
def name : Level → String
  | warn => "WARN"
  | info => "INFO"
  | debug => "DEBUG"
  | trace => "TRACE"

/-- Whether a log kept at a level shows notices of another. -/
def shows (kept level : Level) : Bool :=
  level.rank ≤ kept.rank

end Level

/-- Something worth reporting. -/
inductive Notice where
  | busWrite (byte : UInt8)
  /-- A header asks for the T6W28, or for two chips. -/
  | otherChip (t6w28 : Bool)
  | otherFeedback (declared : Nat)
  | otherWidth (declared : Nat)
  | header (header : Header)
  | decompressed (before after : Nat)
  | loaded (path : String) (compressed : Bool) (header : Header) (size : Nat)
  | slowClock (clock : Nat)
  /-- A wait that was cut short, and the position after it. -/
  | clampedWait (samples offset left : Nat)
  | endMarker (offset rendered declared : Nat)
  | drift (cycles : Int) (rendered : Nat)
  | rendered (samples executed : Nat)
  | stopped (rendered declared : Nat)
  | normalizing
  | fadingOut (seconds : Binary32)
  | wroteWav (frames : Nat) (path : String) (rate channels : Nat)
  | wroteRaw (bytes : Nat) (path : String)
  deriving DecidableEq

/-- The feedback pattern of the emulated noise. -/
def emulatedFeedback : Nat := 0x0009

/-- The width of the emulated noise register. -/
def emulatedWidth : Nat := 16

namespace Notice

/-- How important a notice is. -/
def level : Notice → Level
  | busWrite _ => .trace
  | otherChip _ => .warn
  | otherFeedback _ => .warn
  | otherWidth _ => .warn
  | header _ => .debug
  | decompressed _ _ => .debug
  | loaded _ _ _ _ => .info
  | slowClock _ => .warn
  | clampedWait _ _ _ => .warn
  | endMarker _ _ _ => .info
  | drift _ _ => .debug
  | rendered _ _ => .info
  | stopped _ _ => .info
  | normalizing => .debug
  | fadingOut _ => .debug
  | wroteWav _ _ _ _ => .info
  | wroteRaw _ _ => .info

/-- The part of the program a notice comes from, as the log names it. -/
def source : Notice → String
  | busWrite _ => "sn76489::sn76489::chip"
  | otherChip _ => "sn76489::vgm::header"
  | otherFeedback _ => "sn76489::vgm::header"
  | otherWidth _ => "sn76489::vgm::header"
  | header _ => "sn76489::vgm::header"
  | decompressed _ _ => "sn76489::compression"
  | loaded _ _ _ _ => "sn76489::vgm::loader"
  | slowClock _ => "sn76489::vgm::interpreter"
  | clampedWait _ _ _ => "sn76489::vgm::interpreter"
  | endMarker _ _ _ => "sn76489::vgm::interpreter"
  | drift _ _ => "sn76489::vgm::interpreter"
  | rendered _ _ => "sn76489::vgm"
  | stopped _ _ => "sn76489::vgm"
  | normalizing => "sn76489::export"
  | fadingOut _ => "sn76489::export"
  | wroteWav _ _ _ _ => "sn76489::export::wav"
  | wroteRaw _ _ => "sn76489::export::raw"

/-- A notice in words. -/
def message : Notice → String
  | busWrite byte =>
    s!"PSG write {opcodeText byte.toNat}: {(BusWrite.decode byte).describe}"
  | otherChip t6w28 =>
    let wanted := if t6w28 then "a T6W28" else "dual SN76489s"
    s!"VGM header requests {wanted}; emulating a single SN76489"
  | otherFeedback declared =>
    s!"VGM header declares LFSR feedback 0x{Text.hexUpper 4 declared}; " ++
      s!"emulating 0x{Text.hexUpper 4 emulatedFeedback}"
  | otherWidth declared =>
    s!"VGM header declares a {declared}-bit LFSR; emulating {emulatedWidth} bits"
  | header h => h.describe
  | decompressed before after =>
    s!"Decompressed gzip container: {before} -> {after} bytes"
  | loaded path zipped h size =>
    let container := if zipped then "gzip " else ""
    s!"Loaded {path} ({container}VGM {h.versionText}, {size} bytes, " ++
      s!"PSG clock {h.clock} Hz, {h.totalSamples} samples)"
  | slowClock clock =>
    s!"PSG clock {clock} Hz is below the output rate; the chip will not advance"
  | clampedWait samples offset left =>
    s!"Wait of {samples} samples at offset {offsetText offset} overruns the declared length; " ++
      s!"clamping to {left}"
  | endMarker offset samples declared =>
    s!"End marker at offset {offsetText offset} after {samples} of {declared} declared samples"
  | drift cycles samples =>
    s!"Chip time drift: {cycles} cycles behind over {samples} samples"
  | rendered samples executed =>
    s!"Rendered {samples} samples ({(secondsOf samples).fixedText 2}s) from {executed} commands"
  | stopped samples declared =>
    s!"Rendering stopped after {samples} of {declared} samples"
  | normalizing => "Normalizing audio"
  | fadingOut seconds => s!"Applying {seconds.fixedText 1}s fade out"
  | wroteWav frames path rate channels =>
    let ending := if channels = 1 then "" else "s"
    s!"Wrote {frames} frames to {path} ({rate} Hz, {channels} channel{ending})"
  | wroteRaw bytes path => s!"Wrote {bytes} bytes of raw PCM to {path}"

/-- A line of a log that shows levels only. -/
def shortLine (n : Notice) : String :=
  s!"{n.level.name}: {n.message}"

/-- How far the further lines of a message are moved in. -/
def indentation : Nat := 4

/-- An entry of a log that shows levels and sources, without terminal control and with the line end
that closes it. -/
def logEntry (n : Notice) : String :=
  let message := Text.indentRest indentation n.message
  Text.plain s!"[{Text.padRight 5 n.level.name} {n.source}] {message}\n"

end Notice

/-- The notices a log kept at a level shows. -/
def shownAt (level : Level) (notices : List Notice) : List Notice :=
  notices.filter fun n => level.shows n.level

end Chiptune
