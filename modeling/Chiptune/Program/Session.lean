import Chiptune.File.Tree
import Chiptune.Program.Options
import Chiptune.Vgm.Song

/-!
# Program — Sessions

What `vgm2wav` does with its options, without doing it: given the contents of the input, a session
either ends at once or wants one file written and then ends (`Session`).  The stages are taken in
order, and the first that fails decides the exit status: reading, decompressing, the header, its
clock, rendering, the audio settings, writing.  `runIn` carries a session out in a file tree.
-/

namespace Chiptune

/-- What a program leaves behind besides files. -/
structure Outcome where
  status : Nat
  output : String
  /-- The error output. -/
  errors : String
  deriving DecidableEq

/-- The rest of a run of the program. -/
inductive Session where
  | finish (outcome : Outcome)
  /-- Write a file, then end as its success or failure says. -/
  | write (path : String) (contents : ByteArray) (after : Except OsError Unit → Outcome)

namespace Session

/-- The status of a command line that is not understood. -/
def usageStatus : Nat := 2

/-- The name and version of the program. -/
def versionLine : String := "vgm2wav 0.1.0\n"

/-- The help text. -/
def helpText : String :=
  "Render SN76489 VGM/VGZ logs to 16-bit PCM\n\n" ++
  "Usage: vgm2wav [OPTIONS] <INPUT>\n\n" ++
  "Arguments:\n" ++
  "  <INPUT>  Input VGM or VGZ file\n\n" ++
  "Options:\n" ++
  "  -o, --output <OUTPUT>  Output file (default: input with the format's extension)\n" ++
  "  -f, --format <FORMAT>  Output format [default: wav] [possible values: wav, raw]\n" ++
  "      --stereo           Duplicate the mono signal into two channels\n" ++
  "      --normalize        Scale the output so its peak sits just below full scale\n" ++
  "      --fade-out <SECS>  Fade out over the last SECS seconds [default: 0]\n" ++
  "      --mute <CH>        Silence a channel in the mix (0-2 tone, 3 noise); repeatable\n" ++
  "      --info             Print the parsed header as JSON and exit\n" ++
  "  -v, --verbose...       Increase log verbosity (-v info, -vv debug, -vvv trace)\n" ++
  "  -h, --help             Print help\n" ++
  "  -V, --version          Print version\n"

/-- How the program ends when it has no options to run with. -/
def refused : Refusal → Outcome
  | .usage =>
    ⟨usageStatus, "", "error: invalid arguments\n\nUsage: vgm2wav [OPTIONS] <INPUT>\n"⟩
  | .help => ⟨0, helpText, ""⟩
  | .version => ⟨0, versionLine, ""⟩

/-- The log that the options show of some notices. -/
def logText (o : Options) (notices : List Notice) : String :=
  String.join ((shownAt o.logLevel notices).map Notice.logEntry)

/-- The end of a run that failed. -/
def failure (o : Options) (notices : List Notice) (e : Error) : Outcome :=
  ⟨e.exitStatus, "", logText o notices ++ s!"Error: {e.message}\n"⟩

/-- The end of a run that did what it was asked. -/
def success (o : Options) (notices : List Notice) (output : String) : Outcome :=
  ⟨0, output, logText o notices⟩

/-- The line that sums up a run. -/
def summary (o : Options) (r : Rendering) : String :=
  s!"{o.input} -> {o.outputPath} ({r.samples.size} samples, {r.duration.fixedText 2}s)\n"

/-- The last stage: write the rendered samples as the options ask. -/
def store (o : Options) (notices : List Notice) (r : Rendering) : Session :=
  let notices := notices ++ AudioFormat.encodeNotices o.settings
  match o.format.encode o.settings r.samples with
  | .error e => .finish (failure o notices e)
  | .ok contents =>
    .write o.outputPath contents fun
      | .error cause => failure o notices (o.format.writeFailure o.outputPath cause)
      | .ok () =>
        let written := o.format.writtenNotice o.settings o.outputPath r.samples.size contents
        success o (notices ++ [written]) (summary o r)

/-- Render a song and go on to write it. -/
def render (o : Options) (notices : List Notice) (song : Song) : Session :=
  let player := song.player o.chip
  let run := player.run
  let notices := notices ++ song.renderNotices Chip.announce player run
  match run.1 with
  | .error e => .finish (failure o notices e)
  | .ok r => store o notices r

/-- Load the song in the contents of the input and go on to render it. -/
def play (o : Options) (contents : ByteArray) : Session :=
  let unwrapped := Gzip.unwrap contents
  let notices := imageNotices contents unwrapped
  match unwrapped.bind Song.ofImage with
  | .error e => .finish (failure o notices e)
  | .ok song =>
    let loaded := .loaded o.input (Gzip.isGzip contents) song.header song.image.size
    render o (notices ++ [loaded]) song

/-- Print the header in the contents of the input. -/
def info (o : Options) (contents : ByteArray) : Outcome :=
  let unwrapped := Gzip.unwrap contents
  let notices := imageNotices contents unwrapped
  match unwrapped.bind Header.read with
  | .error e => failure o notices e
  | .ok header => success o notices (header.toJson.pretty ++ "\n")

/-- The run that the options ask for, given what reading the input gave. -/
def start (o : Options) (input : Except OsError ByteArray) : Session :=
  match input with
  | .error cause => .finish (failure o [] (.invalidImage (.unreadable o.input cause)))
  | .ok contents => if o.info then .finish (info o contents) else play o contents

/-- Carry a session out in a file tree. -/
def runIn (tree : FileTree) : Session → Outcome × FileTree
  | .finish outcome => (outcome, tree)
  | .write path contents after =>
    match tree.write path contents with
    | .error cause => (after (.error cause), tree)
    | .ok tree => (after (.ok ()), tree)

/-- Run the program on a command line in a file tree. -/
def runProgram (tree : FileTree) (words : List String) : Outcome × FileTree :=
  match Options.parse words with
  | .error refusal => (refused refusal, tree)
  | .ok o => runIn tree (start o (tree.read o.input))

end Session

end Chiptune
