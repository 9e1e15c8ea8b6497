import Chiptune.Number.Text

/-!
# Error — What can go wrong

Each kind of failure is a cause with its data; the wording is in one place (`Error.message`), and so
is the exit status a program ends with (`Error.exitStatus`).
-/

namespace Chiptune

/-- Why a file operation is refused. -/
inductive OsError where
  /-- Nothing has that name. -/
  | notFound
  /-- A directory on the way to the name is something else. -/
  | notDirectory
  /-- The name is that of a directory. -/
  | isDirectory
  /-- A part of the name, or all of it, is too long. -/
  | nameTooLong
  /-- There is a zero character in the name, which no file system is asked about. -/
  | zeroInName
  /-- Another reason, with the words and the number the operating system has for it. -/
  | other (text : String) (code : Nat)
  deriving DecidableEq

/-- The words and the number of a refusal. -/
def OsError.message : OsError → String
  | notFound => "No such file or directory (os error 2)"
  | notDirectory => "Not a directory (os error 20)"
  | isDirectory => "Is a directory (os error 21)"
  | nameTooLong => "File name too long (os error 36)"
  | zeroInName => "file name contained an unexpected NUL byte"
  | other text code => s!"{text} (os error {code})"

/-- Why an input is not a usable image. -/
inductive ImageFault where
  /-- Too short to hold a header. -/
  | tooSmall (size : Nat)
  | noMagic
  | dataOffsetPastEnd (offset size : Nat)
  | commandOffsetPastEnd (offset : Nat)
  | unreadable (path : String) (cause : OsError)
  /-- A reason given in words by a caller. -/
  | stated (reason : String)
  deriving DecidableEq

/-- Why a gzip stream cannot be decoded. -/
inductive GzipFault where
  /-- The input ends in the member header or in the trailer. -/
  | unexpectedEnd
  /-- The input ends inside the compressed data. -/
  | incompleteStream
  | badHeader
  | longField
  | corruptStream
  | checksumMismatch
  deriving DecidableEq

/-- Why a compressed input was not decompressed. -/
inductive DecompressionFault where
  | gzip (fault : GzipFault)
  /-- The output passes the limit, given in bytes. -/
  | tooLarge (limit : Nat)
  /-- A reason given in words by a caller. -/
  | stated (reason : String)
  deriving DecidableEq

/-- Why audio settings are refused. -/
inductive SettingsFault where
  | channels (count : Nat)
  | zeroSampleRate
  | fadeOut (seconds : Binary32)
  /-- A reason given in words by a caller. -/
  | stated (reason : String)
  deriving DecidableEq

/-- Why an audio file was not written. -/
inductive AudioFault where
  | wav (path : String) (cause : OsError)
  | raw (path : String) (cause : OsError)
  /-- A reason given in words by a caller. -/
  | stated (reason : String)
  deriving DecidableEq

/-- The failures of the library. -/
inductive Error where
  | invalidImage (fault : ImageFault)
  /-- The header declares no clock for the chip. -/
  | missingClock
  | unknownCommand (opcode offset : Nat)
  | truncatedCommand (opcode offset : Nat)
  /-- The commands end before the declared length without an end marker. -/
  | unexpectedEnd (offset rendered expected : Nat)
  | decompression (fault : DecompressionFault)
  | audioFile (fault : AudioFault)
  | settings (fault : SettingsFault)
  deriving DecidableEq

/-! ### Wording -/

/-- An offset as messages show it. -/
def offsetText (offset : Nat) : String :=
  "0x" ++ Text.hexUpper 1 offset

/-- An opcode as messages show it. -/
def opcodeText (opcode : Nat) : String :=
  "0x" ++ Text.hexUpper 2 opcode

/-- The smallest size an image can have. -/
def headerSize : Nat := 0x40

/-- The reason in words. -/
def ImageFault.message : ImageFault → String
  | tooSmall size => s!"file too small for VGM header ({size} bytes, need {headerSize})"
  | noMagic => "missing \"Vgm \" magic"
  | dataOffsetPastEnd offset size =>
    s!"data offset {offsetText offset} is past the end of the file ({offsetText size} bytes)"
  | commandOffsetPastEnd offset =>
    s!"command offset {offsetText offset} is past the end of the data"
  | unreadable path cause => s!"failed to read '{path}': {cause.message}"
  | stated reason => reason

/-- The reason in words. -/
def GzipFault.message : GzipFault → String
  | unexpectedEnd => "unexpected end of file"
  | incompleteStream => "incomplete deflate stream"
  | badHeader => "invalid gzip header"
  | longField => "gzip header field too long"
  | corruptStream => "corrupt deflate stream"
  | checksumMismatch => "corrupt gzip stream does not have a matching checksum"

/-- The reason in words. -/
def DecompressionFault.message : DecompressionFault → String
  | gzip fault => s!"gzip decompression failed: {fault.message}"
  | tooLarge limit =>
    s!"Decompressed data exceeded maximum safe size ({limit / 1048576} MB). " ++
      "The file may be corrupted or an attempted decompression bomb."
  | stated reason => reason

/-- The reason in words. -/
def SettingsFault.message : SettingsFault → String
  | channels count => s!"channels must be 1 or 2, got {count}"
  | zeroSampleRate => "sample rate must be non-zero"
  | fadeOut seconds =>
    s!"fade out duration must be a non-negative number of seconds, got {seconds.plainText}"
  | stated reason => reason

/-- The reason in words. -/
def AudioFault.message : AudioFault → String
  | wav path cause => s!"failed to create WAV file '{path}': {cause.message}"
  | raw path cause => s!"failed to write '{path}': {cause.message}"
  | stated reason => reason

namespace Error

/-- The failure in words. -/
def message : Error → String
  | invalidImage fault => s!"Invalid VGM file: {fault.message}"
  | missingClock => "PSG clock not defined in VGM header (offset 0x0C)"
  | unknownCommand opcode offset =>
    s!"Unimplemented VGM command {opcodeText opcode} at offset {offsetText offset}"
  | truncatedCommand opcode offset =>
    s!"VGM command {opcodeText opcode} at offset {offsetText offset} is truncated"
  | unexpectedEnd offset rendered expected =>
    s!"VGM data ended at offset {offsetText offset} after {rendered} of {expected} samples " ++
      "without an end marker"
  | decompression fault => s!"Decompression error: {fault.message}"
  | audioFile fault => s!"Audio file write error: {fault.message}"
  | settings fault => s!"Invalid configuration: {fault.message}"

/-- The status a program ends with after the failure. -/
def exitStatus : Error → Nat
  | settings _ => 1
  | invalidImage _ => 3
  | decompression _ => 3
  | missingClock => 4
  | unknownCommand _ _ => 5
  | truncatedCommand _ _ => 5
  | unexpectedEnd _ _ _ => 5
  | audioFile _ => 6

end Error

end Chiptune
