import Chiptune.Proofs.Audio.Wav
import Chiptune.Proofs.Program.Stages

/-!
# Audio — Exports

An export processes samples and stores what comes of it in one of two formats.

* `exportTo`: an export by itself; by `Session.runIn_store` it is the last stage of a session.
* `puts_of_encode`: what an export makes of the samples is found where its path leads, and nothing
  else has changed.
* `exportTo_agree`: settings are refused for the same reason by both formats, before a file is
  touched; with all others both files hold the same words and are read back as the same samples.
-/

namespace Chiptune

namespace AudioFormat

/-- Export samples to a file: what comes of it, and the files that are there afterwards. -/
def exportTo (format : AudioFormat) (settings : AudioSettings) (samples : Array Int) (path : String)
    (tree : FileTree) : Except Error Unit × FileTree :=
  match format.encode settings samples with
  | .error e => (.error e, tree)
  | .ok contents =>
    match tree.write path contents with
    | .error cause => (.error (format.writeFailure path cause), tree)
    | .ok written => (.ok (), written)

end AudioFormat

/-- The last stage of a session is an export. -/
theorem Session.runIn_store (o : Options) (notices : List Notice) (r : Rendering)
    (tree : FileTree) :
    let exported := o.format.exportTo o.settings r.samples o.outputPath tree
    let result := runIn tree (store o notices r)
    result.2 = exported.2 ∧
      match exported.1 with
      | .ok () => result.1.status = 0
      | .error e => result.1.status = e.exitStatus := by
  unfold store AudioFormat.exportTo
  cases o.format.encode o.settings r.samples with
  | error e => exact ⟨rfl, rfl⟩
  | ok contents =>
      dsimp only [runIn]
      cases tree.write o.outputPath contents <;> exact ⟨rfl, rfl⟩

namespace AudioFormat

variable {format : AudioFormat} {settings : AudioSettings} {samples : Array Int}

/-- Exporting the samples puts a file with these contents where the path leads, and changes nothing
else; if no file can be put there, nothing is changed at all. -/
structure Puts (format : AudioFormat) (settings : AudioSettings) (samples : Array Int)
    (contents : ByteArray) : Prop where
  written : ∀ path (tree tree' : FileTree), tree.write path contents = .ok tree' →
    format.exportTo settings samples path tree = (.ok (), tree') ∧
      tree'.read path = .ok contents ∧
      ∀ place, place ≠ .ofPath path → tree'.node? place = tree.node? place
  refused : ∀ path (tree : FileTree) cause, tree.write path contents = .error cause →
    format.exportTo settings samples path tree = (.error (format.writeFailure path cause), tree)

theorem puts_of_encode {contents : ByteArray} (h : format.encode settings samples = .ok contents) :
    format.Puts settings samples contents where
  written path tree tree' hwrite := by
    obtain ⟨hnode, hread⟩ := FileTree.write_eq_ok hwrite
    refine ⟨?_, hread, fun place hplace => ?_⟩
    · rw [exportTo, h]
      dsimp only
      rw [hwrite]
    · rw [hnode, if_neg hplace]
  refused path tree cause hwrite := by
    rw [exportTo, h]
    dsimp only
    rw [hwrite]

/-- Settings that are refused are refused before the file is touched. -/
theorem exportTo_of_error {e : Error} (h : settings.validate = .error e) (path : String)
    (tree : FileTree) : format.exportTo settings samples path tree = (.error e, tree) := by
  rw [exportTo, encode, h]
  rfl

/-- The words that both formats store. -/
def storedWords (settings : AudioSettings) (samples : Array Int) : List UInt8 :=
  (Audio.process settings samples).toList.flatMap sampleWord

theorem toByteArray_storedWords (settings : AudioSettings) (samples : Array Int) :
    (storedWords settings samples).toByteArray = pcmBytes (Audio.process settings samples) :=
  (pcmBytes_eq _).symm

/-- What the two formats make of samples, with `header` in front of a WAV file. -/
structure Agree (settings : AudioSettings) (samples : Array Int) (header : List UInt8) : Prop where
  /-- Every sample becomes a frame, with a value for every channel, -/
  size : (Audio.process settings samples).size = settings.channels * samples.size
  /-- which is the sample that a single channel would have. -/
  frames : (Audio.process settings samples).toList =
    (Audio.process { settings with channels := 1 } samples).toList.flatMap
      (List.replicate settings.channels)
  /-- The frames are stored as two bytes for every value, -/
  words : (storedWords settings samples).length = 2 * (Audio.process settings samples).size
  /-- in a raw file nothing else, -/
  raw : raw.Puts settings samples (storedWords settings samples).toByteArray
  /-- in a WAV file the same bytes behind a header, -/
  wav : wav.Puts settings samples (header ++ storedWords settings samples).toByteArray
  header_length : header.length = 44
  /-- which declares them as they are. -/
  declared : WavFields.read? (header ++ storedWords settings samples).toByteArray =
    some
      { riffSize := 36 + 2 * (Audio.process settings samples).size
        coding := 1
        channels := settings.channels
        rate := settings.sampleRate
        byteRate := settings.sampleRate * 2 * settings.channels
        frameSize := 2 * settings.channels
        sampleBits := 16
        dataSize := 2 * (Audio.process settings samples).size }
  /-- Both files are read back as the processed samples. -/
  raw_samples : AudioFormat.raw.samplesIn? (storedWords settings samples).toByteArray =
    some (Audio.process settings samples).toList
  wav_samples : AudioFormat.wav.samplesIn? (header ++ storedWords settings samples).toByteArray =
    some (Audio.process settings samples).toList
  /-- Without normalising and with a fade of zero, those are the samples, repeated for every
  channel. -/
  unprocessed : ∀ negative, settings.normalize = false → settings.fadeOut = .zero negative →
    (Audio.process settings samples).toList =
      samples.toList.flatMap (List.replicate settings.channels)

theorem agree_of_validate (hsamples : ∀ s ∈ samples, IsSample s)
    (hvalid : settings.validate = .ok ())
    (hsize : 36 + 2 * settings.channels * samples.size < Nat.pow 2 32)
    (hrate : settings.sampleRate * 2 * settings.channels < Nat.pow 2 32) :
    Agree settings samples
      (wavHeader settings.sampleRate settings.channels
        (2 * (Audio.process settings samples).size)) := by
  have hchannels := AudioSettings.channels_of_validate hvalid
  have hprocessed := Audio.isSample_process hchannels hsamples
  have hfew : settings.channels ≤ 2 := by omega
  have hall : 36 + 2 * (Audio.process settings samples).size < Nat.pow 2 32 := by
    rwa [Audio.size_process hchannels, ← Nat.mul_assoc]
  have hslow : settings.sampleRate < Nat.pow 2 32 := by
    refine Nat.lt_of_le_of_lt ?_ hrate
    rw [Nat.mul_assoc]
    exact Nat.le_mul_of_pos_right _ (by omega)
  -- the size that the header declares is the size that the bytes have
  have hwav : (wavHeader settings.sampleRate settings.channels
        (2 * (Audio.process settings samples).size) ++
          storedWords settings samples).toByteArray =
      wavBytes settings.sampleRate settings.channels (Audio.process settings samples) := by
    rw [List.toByteArray_append, toByteArray_storedWords, ← size_pcmBytes]
    rfl
  refine
    { size := Audio.size_process hchannels samples
      frames := Audio.toList_process hchannels samples
      words := ?_
      raw := ?_
      wav := ?_
      header_length := length_wavHeader _ _ _
      declared := ?_
      raw_samples := ?_
      wav_samples := ?_
      unprocessed := ?_ }
  · rw [← List.size_toByteArray, toByteArray_storedWords, size_pcmBytes]
  · rw [toByteArray_storedWords]
    refine puts_of_encode ?_
    rw [encode, hvalid]
    rfl
  · rw [hwav]
    refine puts_of_encode ?_
    rw [encode, hvalid]
    rfl
  · rw [List.toByteArray_append, WavFields.read?_wavHeader hfew hslow hrate hall]
    rfl
  · rw [toByteArray_storedWords]
    exact samplesIn?_pcmBytes hprocessed
  · rw [hwav]
    exact samplesIn?_wavBytes hprocessed hfew hslow hrate (by rwa [size_pcmBytes])
  · intro negative hnormalize hfade
    have hnone : settings.fadeOut.isPositive = false := by
      rw [hfade, Binary32.isPositive_zero]
    rw [Audio.toList_process hchannels, Audio.process_mono, Audio.shape_eq_self hnormalize hnone]

/-- **Exports agree.**  Settings that are refused are refused by both formats for the same reason,
and no file is created or changed.  With all other settings, both files hold the same bytes but for
the header of a WAV file, which declares them as they are, as long as the numbers fit the header.
Those bytes are the words of the samples after post-processing, so each file is read back as these
samples; with neither normalising nor fading they are the samples themselves, repeated for every
channel. -/
theorem exportTo_agree (settings : AudioSettings) (samples : Array Int)
    (hsamples : ∀ s ∈ samples, IsSample s) :
    (∀ e, settings.validate = .error e →
      (∃ fault, e = .settings fault) ∧
        ∀ (format : AudioFormat) path tree,
          format.exportTo settings samples path tree = (.error e, tree)) ∧
    (settings.validate = .ok () →
      36 + 2 * settings.channels * samples.size < Nat.pow 2 32 →
      settings.sampleRate * 2 * settings.channels < Nat.pow 2 32 →
      Agree settings samples
        (wavHeader settings.sampleRate settings.channels
          (2 * (Audio.process settings samples).size))) := by
  refine ⟨fun e he => ⟨AudioSettings.validate_error he, fun format path tree => ?_⟩, ?_⟩
  · exact exportTo_of_error he path tree
  · exact agree_of_validate hsamples

/-- The largest and the least sample in two channels, written into an empty directory in either format
and read back; with three channels nothing is written. -/
theorem exportTo_agree_extremes :
    let samples := #[Audio.maxSample, Audio.minSample]
    let words : List UInt8 := [0xFF, 0x7F, 0xFF, 0x7F, 0x00, 0x80, 0x00, 0x80]
    (∀ s ∈ samples, IsSample s) ∧
      AudioSettings.stereo.validate = .ok () ∧
      (∃ tree, raw.exportTo .stereo samples "out.bin" .empty = (.ok (), tree) ∧
        tree.read "out.bin" = .ok words.toByteArray) ∧
      (∃ tree, wav.exportTo .stereo samples "out.wav" .empty = (.ok (), tree) ∧
        tree.read "out.wav" = .ok (wavHeader 44100 2 8 ++ words).toByteArray) ∧
      wav.samplesIn? (wavHeader 44100 2 8 ++ words).toByteArray =
        some [32767, 32767, -32768, -32768] ∧
      ∀ path tree, wav.exportTo { channels := 3 } samples path tree =
        (.error (.settings (.channels 3)), tree) := by
  intro samples words
  have hsamples : ∀ s ∈ samples, IsSample s := by decide
  have hvalid : AudioSettings.stereo.validate = .ok () := by decide
  have hagree : Agree .stereo samples (wavHeader 44100 2 8) :=
    (exportTo_agree .stereo samples hsamples).2 hvalid (by decide) (by decide)
  have hwords : storedWords .stereo samples = words := by decide
  have hraw : raw.Puts .stereo samples words.toByteArray := hwords ▸ hagree.raw
  have hwav : wav.Puts .stereo samples (wavHeader 44100 2 8 ++ words).toByteArray :=
    hwords ▸ hagree.wav
  have hsame : wav.samplesIn? (wavHeader 44100 2 8 ++ words).toByteArray =
      some (Audio.process .stereo samples).toList := hwords ▸ hagree.wav_samples
  have hwrite : ∀ {name : String}, IsName name → ∀ contents,
      FileTree.empty.write name contents = .ok (FileTree.empty.put ⟨.above 0, [name]⟩ contents) :=
    fun hname => FileTree.write_of_isName hname (by simp [FileTree.node?, FileTree.empty])
  refine ⟨hsamples, hvalid, ?_, ?_, hsame, ?_⟩
  · obtain ⟨hexport, hread, -⟩ := hraw.written "out.bin" .empty _
      (hwrite (by decide) _)
    exact ⟨_, hexport, hread⟩
  · obtain ⟨hexport, hread, -⟩ := hwav.written "out.wav" .empty _
      (hwrite (by decide) _)
    exact ⟨_, hexport, hread⟩
  · exact ((exportTo_agree { channels := 3 } samples hsamples).1 _ (by decide)).2 wav

end AudioFormat

end Chiptune
