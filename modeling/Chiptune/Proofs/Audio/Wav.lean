import Chiptune.Proofs.Audio.Pcm
import Chiptune.Proofs.Bytes.Patches

/-!
# Audio — WAV files

The canonical header of a WAV file is a row of tags and numbers (`wavParts`), so each has a fixed
position.  A reader checks the tags there and takes the numbers (`WavFields.read?`).

* `WavFields.read?_wavHeader`: of a header whose numbers fit their widths, a reader gets the numbers
  it was made from, whatever stands behind it.
* `AudioFormat.samplesIn?_wavBytes`, `AudioFormat.samplesIn?_pcmBytes`: from a file of either format, a
  reader gets the samples that were stored in it.
-/

namespace Chiptune

/-- The length of the canonical header. -/
def wavHeaderSize : Nat := 44

/-- The tags and numbers of the header, in order. -/
def wavParts (rate channels dataSize : Nat) : List (List UInt8) :=
  [tag "RIFF", leBytes 4 (36 + dataSize), tag "WAVE", tag "fmt ", leBytes 4 16, leBytes 2 1,
    leBytes 2 channels, leBytes 4 rate, leBytes 4 (rate * sampleBytes * channels),
    leBytes 2 (sampleBytes * channels), leBytes 2 (8 * sampleBytes), tag "data",
    leBytes 4 dataSize]

theorem wavHeader_eq_flatten (rate channels dataSize : Nat) :
    wavHeader rate channels dataSize = (wavParts rate channels dataSize).flatten := by
  simp only [wavHeader, wavParts, List.flatten_cons, List.flatten_nil, List.append_nil,
    List.append_assoc]

/-- The positions of the parts. -/
theorem inRow_wavParts (rate channels dataSize : Nat) :
    Patch.inRow 0 (wavParts rate channels dataSize) =
      [⟨0, tag "RIFF"⟩, ⟨4, leBytes 4 (36 + dataSize)⟩, ⟨8, tag "WAVE"⟩, ⟨12, tag "fmt "⟩,
        ⟨16, leBytes 4 16⟩, ⟨20, leBytes 2 1⟩, ⟨22, leBytes 2 channels⟩, ⟨24, leBytes 4 rate⟩,
        ⟨28, leBytes 4 (rate * sampleBytes * channels)⟩, ⟨32, leBytes 2 (sampleBytes * channels)⟩,
        ⟨34, leBytes 2 (8 * sampleBytes)⟩, ⟨36, tag "data"⟩, ⟨40, leBytes 4 dataSize⟩] := rfl

theorem length_wavHeader (rate channels dataSize : Nat) :
    (wavHeader rate channels dataSize).length = wavHeaderSize := by
  rw [wavHeader_eq_flatten]
  rfl

/-- What the header of a WAV file declares. -/
structure WavFields where
  /-- The number of bytes behind this field. -/
  riffSize : Nat
  /-- How samples are written; one is for as they are. -/
  coding : Nat
  channels : Nat
  rate : Nat
  /-- Bytes of a second. -/
  byteRate : Nat
  /-- Bytes of a frame. -/
  frameSize : Nat
  /-- Bits of a sample. -/
  sampleBits : Nat
  /-- Bytes of all samples. -/
  dataSize : Nat
  deriving DecidableEq

namespace WavFields

/-- The fields of the canonical header at the beginning of a file, if there is one. -/
def read? (file : ByteArray) : Option WavFields :=
  if hasBytesAt file 0 (tag "RIFF") = true ∧ hasBytesAt file 8 (tag "WAVE") = true ∧
      hasBytesAt file 12 (tag "fmt ") = true ∧ leWord file 16 4 = 16 ∧
      hasBytesAt file 36 (tag "data") = true then
    some
      { riffSize := leWord file 4 4
        coding := leWord file 20 2
        channels := leWord file 22 2
        rate := leWord file 24 4
        byteRate := leWord file 28 4
        frameSize := leWord file 32 2
        sampleBits := leWord file 34 2
        dataSize := leWord file 40 4 }
  else none

variable {rate channels dataSize : Nat}

/-- Of a header whose numbers fit their widths, a reader gets the numbers it was made from. -/
theorem read?_wavHeader (hchannels : channels ≤ 2) (hrate : rate < Nat.pow 2 32)
    (hbyteRate : rate * sampleBytes * channels < Nat.pow 2 32)
    (hsize : 36 + dataSize < Nat.pow 2 32) (back : ByteArray) :
    read? ((wavHeader rate channels dataSize).toByteArray ++ back) =
      some
        { riffSize := 36 + dataSize
          coding := 1
          channels := channels
          rate := rate
          byteRate := rate * sampleBytes * channels
          frameSize := sampleBytes * channels
          sampleBits := 8 * sampleBytes
          dataSize := dataSize } := by
  have hrow : ∀ p ∈ Patch.inRow 0 (wavParts rate channels dataSize),
      p.StandsIn ((wavHeader rate channels dataSize).toByteArray ++ back) := by
    intro p hp
    rw [wavHeader_eq_flatten]
    exact Patch.standsIn_of_mem_inRow back hp
  simp only [inRow_wavParts, List.forall_mem_cons, Patch.StandsIn] at hrow
  obtain ⟨hriff, hriffSize, hwave, hfmt, hfmtSize, hcoding, hchannelCount, hrateField,
    hbyteRateField, hframeSize, hsampleBits, hdata, hdataSize, -⟩ := hrow
  have hframe : sampleBytes * channels < Nat.pow 256 2 :=
    show 2 * channels < 65536 by omega
  have hcount : channels < Nat.pow 256 2 := show channels < 65536 by omega
  have hall : dataSize < Nat.pow 256 4 := Nat.lt_of_le_of_lt (Nat.le_add_left _ 36) hsize
  rw [read?, if_pos ⟨hriff, hwave, hfmt, leWord_of_leBytes (by decide) hfmtSize, hdata⟩,
    leWord_of_leBytes hsize hriffSize, leWord_of_leBytes (by decide) hcoding,
    leWord_of_leBytes hcount hchannelCount, leWord_of_leBytes hrate hrateField,
    leWord_of_leBytes hbyteRate hbyteRateField, leWord_of_leBytes hframe hframeSize,
    leWord_of_leBytes (by decide) hsampleBits, leWord_of_leBytes hall hdataSize]

end WavFields

namespace AudioFormat

/-- The samples that a reader finds in a file: in a WAV file, in the bytes behind the header that it
declares. -/
def samplesIn? (format : AudioFormat) (file : ByteArray) : Option (List Int) :=
  match format with
  | raw => some (samplesOfBytes file.data.toList)
  | wav => (WavFields.read? file).bind fun fields =>
      if fields.coding = 1 ∧ fields.sampleBits = 8 * sampleBytes then
        some (samplesOfBytes ((file.data.toList.drop wavHeaderSize).take fields.dataSize))
      else none

variable {samples : Array Int} (h : ∀ s ∈ samples, IsSample s)

include h

theorem samplesOfBytes_pcmBytes : samplesOfBytes (pcmBytes samples).data.toList = samples.toList := by
  rw [pcmBytes_eq, List.toList_data_toByteArray]
  exact samplesOfBytes_flatMap fun s hs => h s (Array.mem_toList_iff.mp hs)

theorem samplesIn?_pcmBytes : raw.samplesIn? (pcmBytes samples) = some samples.toList :=
  congrArg some (samplesOfBytes_pcmBytes h)

theorem samplesIn?_wavBytes {rate channels : Nat} (hchannels : channels ≤ 2)
    (hrate : rate < Nat.pow 2 32) (hbyteRate : rate * sampleBytes * channels < Nat.pow 2 32)
    (hsize : 36 + (pcmBytes samples).size < Nat.pow 2 32) :
    wav.samplesIn? (wavBytes rate channels samples) = some samples.toList := by
  have hbehind : ((wavBytes rate channels samples).data.toList.drop wavHeaderSize).take
      (pcmBytes samples).size = (pcmBytes samples).data.toList := by
    rw [wavBytes, ByteArray.toList_data_append, List.toList_data_toByteArray,
      List.drop_left' (length_wavHeader _ _ _)]
    exact List.take_length
  have hread := WavFields.read?_wavHeader hchannels hrate hbyteRate hsize (pcmBytes samples)
  rw [samplesIn?]
  rw [show WavFields.read? (wavBytes rate channels samples) = _ from hread, Option.bind_some,
    if_pos ⟨rfl, rfl⟩, hbehind, samplesOfBytes_pcmBytes h]

end AudioFormat

end Chiptune
