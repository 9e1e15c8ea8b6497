import Chiptune.Audio.Format
import Chiptune.Chip
import Chiptune.File.Path

/-!
# Program — Options

The command line of `vgm2wav`, taken apart (`Options.parse`).  Words are taken in order.  A word
with two dashes is a long option, whose value follows an equals sign or is the next word; a word
with one dash is a row of short options, the first that takes a value taking the rest of the word,
without an equals sign in front, or the next word.  A next word that starts with a dash is no value.
A lone `--` ends the options.  The first request for the version or the help text, or the first
mistake, decides what becomes of the whole line.
-/

namespace Chiptune

/-- What a command line asks for. -/
structure Options where
  input : String
  output : Option String
  format : AudioFormat
  stereo : Bool
  normalize : Bool
  fadeOut : Binary32
  /-- The voices to mute, by number, as often as they were given. -/
  mutes : List Nat
  /-- Print the header instead of rendering. -/
  info : Bool
  verbosity : Nat
  deriving DecidableEq

/-- Why there are no options to run with. -/
inductive Refusal where
  /-- The command line is not understood. -/
  | usage
  | help
  | version
  deriving DecidableEq

namespace Options

/-- The options that take a value. -/
inductive Setting where
  | output
  | format
  | fadeOut
  | mute
  deriving DecidableEq

/-- The options that take none. -/
inductive Switch where
  | stereo
  | normalize
  | info
  | verbose
  | help
  | version
  deriving DecidableEq

/-- What was found so far; a field is set once its option was given. -/
structure Draft where
  input : Option String := none
  output : Option String := none
  format : Option AudioFormat := none
  fadeOut : Option Binary32 := none
  mutes : List Nat := []
  stereo : Bool := false
  normalize : Bool := false
  info : Bool := false
  verbosity : Nat := 0

/-! ### Values -/

/-- An optionally signed integer in decimal. -/
def readInteger? (text : String) : Option Int :=
  let (negative, digits) := match text.toList with
    | '-' :: r => (true, r)
    | '+' :: r => (false, r)
    | r => (false, r)
  if digits.isEmpty ∨ !digits.all Char.isDigit then none
  else some (if negative then -(digitsValue digits : Int) else digitsValue digits)

/-- The number of a voice. -/
def readVoice? (text : String) : Option Nat :=
  match readInteger? text with
  | some (.ofNat n) => if n < 4 then some n else none
  | _ => none

/-- The name of a format. -/
def readFormat? : String → Option AudioFormat
  | "wav" => some .wav
  | "raw" => some .raw
  | _ => none

/-- A path, which is not empty. -/
def readPath? (text : String) : Option String :=
  if text = "" then none else some text

/-- Fill in something that can be given only once. -/
def once {α : Type} (old new : Option α) : Option (Option α) :=
  match old, new with
  | none, some value => some (some value)
  | _, _ => none

/-- Take a word that is not an option. -/
def Draft.takeInput (d : Draft) (word : String) : Except Refusal Draft :=
  match once d.input (readPath? word) with
  | some input => .ok { d with input := input }
  | none => .error .usage

/-- Take a value for an option. -/
def Draft.set (d : Draft) (setting : Setting) (value : String) : Except Refusal Draft :=
  let draft? : Option Draft := match setting with
    | .output => (once d.output (readPath? value)).map fun output => { d with output := output }
    | .format => (once d.format (readFormat? value)).map fun format => { d with format := format }
    | .fadeOut =>
      (once d.fadeOut (readBinary32? value)).map fun fadeOut => { d with fadeOut := fadeOut }
    | .mute => (readVoice? value).map fun voice => { d with mutes := d.mutes ++ [voice] }
  match draft? with
  | some draft => .ok draft
  | none => .error .usage

/-- Take an option without a value. -/
def Draft.switch (d : Draft) : Switch → Except Refusal Draft
  | .stereo => if d.stereo then .error .usage else .ok { d with stereo := true }
  | .normalize => if d.normalize then .error .usage else .ok { d with normalize := true }
  | .info => if d.info then .error .usage else .ok { d with info := true }
  | .verbose => .ok { d with verbosity := d.verbosity + 1 }
  | .help => .error .help
  | .version => .error .version

/-! ### Names -/

/-- The option with a long name. -/
def longOption? : String → Option (Setting ⊕ Switch)
  | "output" => some (.inl .output)
  | "format" => some (.inl .format)
  | "fade-out" => some (.inl .fadeOut)
  | "mute" => some (.inl .mute)
  | "stereo" => some (.inr .stereo)
  | "normalize" => some (.inr .normalize)
  | "info" => some (.inr .info)
  | "verbose" => some (.inr .verbose)
  | "help" => some (.inr .help)
  | "version" => some (.inr .version)
  | _ => none

/-- The option with a short name. -/
def shortOption? : Char → Option (Setting ⊕ Switch)
  | 'o' => some (.inl .output)
  | 'f' => some (.inl .format)
  | 'v' => some (.inr .verbose)
  | 'h' => some (.inr .help)
  | 'V' => some (.inr .version)
  | _ => none

/-- Whether a word can be the value of the option before it. -/
def isValue (word : String) : Bool :=
  match word.toList with
  | '-' :: _ :: _ => false
  | _ => true

/-- A long option without its dashes as name and value. -/
def splitValue (word : List Char) : String × Option String :=
  match word.span (· ≠ '=') with
  | (name, _ :: value) => (String.ofList name, some (String.ofList value))
  | (name, []) => (String.ofList name, none)

/-- The value in the rest of a word of short options, if there is a rest. -/
def attachedValue (rest : List Char) : Option String :=
  match rest with
  | [] => none
  | '=' :: value => some (String.ofList value)
  | value => some (String.ofList value)

/-! ### Words -/

/-- Take a row of short options.  The last of them may be left waiting for its value. -/
def Draft.takeShort (d : Draft) : List Char → Except Refusal (Draft × Option Setting)
  | [] => .ok (d, none)
  | c :: rest =>
    match shortOption? c with
    | none => .error .usage
    | some (.inr switch) =>
      match d.switch switch with
      | .error refusal => .error refusal
      | .ok d => d.takeShort rest
    | some (.inl setting) =>
      match attachedValue rest with
      | some value => (d.set setting value).map fun d => (d, none)
      | none => .ok (d, some setting)

/-- Take a long option, which may be left waiting for its value. -/
def Draft.takeLong (d : Draft) (word : List Char) : Except Refusal (Draft × Option Setting) :=
  match splitValue word with
  | (name, value) =>
    match longOption? name, value with
    | none, _ => .error .usage
    | some (.inr switch), none => (d.switch switch).map fun d => (d, none)
    | some (.inr _), some _ => .error .usage
    | some (.inl setting), some value => (d.set setting value).map fun d => (d, none)
    | some (.inl setting), none => .ok (d, some setting)

/-- Take words none of which is an option. -/
def Draft.takeInputs (d : Draft) : List String → Except Refusal Draft
  | [] => .ok d
  | word :: rest =>
    match d.takeInput word with
    | .error refusal => .error refusal
    | .ok d => d.takeInputs rest

/-- Take the words of a command line, while an option may be waiting for its value. -/
def Draft.takeWords (d : Draft) : Option Setting → List String → Except Refusal Draft
  | none, [] => .ok d
  | some _, [] => .error .usage
  | some setting, word :: rest =>
    if isValue word then
      match d.set setting word with
      | .error refusal => .error refusal
      | .ok d => d.takeWords none rest
    else .error .usage
  | none, word :: rest =>
    match word.toList with
    | ['-', '-'] => d.takeInputs rest
    | '-' :: '-' :: long =>
      match d.takeLong long with
      | .error refusal => .error refusal
      | .ok (d, waiting) => d.takeWords waiting rest
    | '-' :: c :: short =>
      match d.takeShort (c :: short) with
      | .error refusal => .error refusal
      | .ok (d, waiting) => d.takeWords waiting rest
    | _ =>
      match d.takeInput word with
      | .error refusal => .error refusal
      | .ok d => d.takeWords none rest

/-- The options of a draft, which must have an input. -/
def ofDraft (d : Draft) : Except Refusal Options :=
  match d.input with
  | none => .error .usage
  | some input =>
    .ok
      { input := input
        output := d.output
        format := d.format.getD .standard
        stereo := d.stereo
        normalize := d.normalize
        fadeOut := d.fadeOut.getD (.zero false)
        mutes := d.mutes
        info := d.info
        verbosity := d.verbosity }

/-- The options of a command line. -/
def parse (words : List String) : Except Refusal Options :=
  (({} : Draft).takeWords none words).bind ofDraft

/-! ### What the options mean -/

/-- The path that is written: the one asked for, or the input with the extension of the format. -/
def outputPath (o : Options) : String :=
  o.output.getD (Path.withExtension o.input o.format.extension)

/-- The audio settings. -/
def settings (o : Options) : AudioSettings :=
  { (if o.stereo then AudioSettings.stereo else .standard) with
    normalize := o.normalize
    fadeOut := o.fadeOut }

/-- A new chip with the voices muted that the options name. -/
def chip (o : Options) : Chip :=
  o.mutes.foldl (fun chip voice => chip.setMute voice true) .powerOn

/-- The level the log is kept at. -/
def logLevel (o : Options) : Level :=
  match o.verbosity with
  | 0 => .warn
  | 1 => .info
  | 2 => .debug
  | _ => .trace

end Options

end Chiptune
