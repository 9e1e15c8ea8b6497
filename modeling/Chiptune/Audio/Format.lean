import Chiptune.Audio.Process
import Chiptune.Bytes.LittleEndian
import Chiptune.Notice

/-!
# Audio — File formats

Samples are stored as signed sixteen-bit words, lowest byte first (`pcmBytes`).  A raw file holds
nothing else; a WAV file puts the canonical header of forty-four bytes in front (`wavHeader`).
`AudioFormat.encode` is the contents of the file that an export writes.
-/

namespace Chiptune

/-- The two bytes of a sample. -/
def pushSample (acc : ByteArray) (sample : Int) : ByteArray :=
  let word := (sample % 65536).toNat
  (acc.push (UInt8.ofNat word)).push (UInt8.ofNat (word / 256))

/-- The bytes of samples in a row. -/
def pcmBytes (samples : Array Int) : ByteArray :=
  samples.foldl pushSample ByteArray.empty

/-- The sample stored in two bytes. -/
def sampleOfBytes (low high : UInt8) : Int :=
  ((low.toNat + 256 * high.toNat : Nat) : Int).bmod 65536

/-- The samples stored in bytes, an odd last byte left out. -/
def samplesOfBytes : List UInt8 → List Int
  | low :: high :: rest => sampleOfBytes low high :: samplesOfBytes rest
  | _ => []

/-- The bytes of an ASCII tag. -/
def tag (text : String) : List UInt8 :=
  text.toList.map fun c => UInt8.ofNat c.toNat

/-- Bytes of one sample in a file. -/
def sampleBytes : Nat := 2

/-- The header of a WAV file with `dataSize` bytes of samples. -/
def wavHeader (rate channels dataSize : Nat) : List UInt8 :=
  tag "RIFF" ++ leBytes 4 (36 + dataSize) ++ tag "WAVE" ++
    tag "fmt " ++ leBytes 4 16 ++ leBytes 2 1 ++ leBytes 2 channels ++ leBytes 4 rate ++
    leBytes 4 (rate * sampleBytes * channels) ++ leBytes 2 (sampleBytes * channels) ++
    leBytes 2 (8 * sampleBytes) ++
    tag "data" ++ leBytes 4 dataSize

/-- The contents of a WAV file. -/
def wavBytes (rate channels : Nat) (samples : Array Int) : ByteArray :=
  let pcm := pcmBytes samples
  (wavHeader rate channels pcm.size).toByteArray ++ pcm

/-- The file formats of the exporter. -/
inductive AudioFormat where
  | wav
  | raw
  deriving DecidableEq, Inhabited

namespace AudioFormat

/-- The format of an export that does not say. -/
def standard : AudioFormat := .wav

/-- The extension of the files of a format, without the dot. -/
def extension : AudioFormat → String
  | wav => "wav"
  | raw => "bin"

/-- The contents of an exported file. -/
def encode (format : AudioFormat) (settings : AudioSettings) (samples : Array Int) :
    Except Error ByteArray :=
  settings.validate.map fun _ =>
    let processed := Audio.process settings samples
    match format with
    | wav => wavBytes settings.sampleRate settings.channels processed
    | raw => pcmBytes processed

/-- The failure to write a file of the format. -/
def writeFailure (format : AudioFormat) (path : String) (cause : OsError) : Error :=
  match format with
  | wav => .audioFile (.wav path cause)
  | raw => .audioFile (.raw path cause)

/-- What preparing the contents of a file reports. -/
def encodeNotices (settings : AudioSettings) : List Notice :=
  match settings.validate with
  | .error _ => []
  | .ok _ =>
    (if settings.normalize then [.normalizing] else []) ++
      (if settings.fadeOut.isPositive then [.fadingOut settings.fadeOut] else [])

/-- What writing a file reports, given the number of samples and the contents. -/
def writtenNotice (format : AudioFormat) (settings : AudioSettings) (path : String) (frames : Nat)
    (contents : ByteArray) : Notice :=
  match format with
  | wav => .wroteWav frames path settings.sampleRate settings.channels
  | raw => .wroteRaw contents.size path

end AudioFormat

end Chiptune
