import Chiptune.Audio.Format
import Mathlib.Data.List.Flatten

/-!
# Audio — Samples as words

Samples on their way into a file.  Post-processing keeps their number and makes sixteen-bit samples
of sixteen-bit samples (`IsSample`); every sample then becomes a frame, and every value of a frame
two bytes (`sampleWord`).

* `toList_process`: the frames are the samples of a single channel, each repeated for every channel.
* `isSample_process`: what is left to store are sixteen-bit samples.
* `pcmBytes_eq`: the bytes of samples are their words in a row.
* `samplesOfBytes_flatMap`: read back from their words, sixteen-bit samples are what they were.
-/

namespace Chiptune

/-- A value of a signed sixteen-bit sample. -/
def IsSample (s : Int) : Prop :=
  Audio.minSample ≤ s ∧ s ≤ Audio.maxSample

instance : DecidablePred IsSample := fun s =>
  inferInstanceAs (Decidable (Audio.minSample ≤ s ∧ s ≤ Audio.maxSample))

/-- The two bytes of a sample in two's complement, the lowest first. -/
def sampleWord (s : Int) : List UInt8 :=
  leBytes 2 (s % 65536).toNat

/-! ### Words -/

theorem toList_pushSample (acc : ByteArray) (s : Int) :
    (pushSample acc s).data.toList = acc.data.toList ++ sampleWord s := by
  simp [pushSample, sampleWord, leBytes]

theorem toList_foldl_pushSample (acc : ByteArray) (samples : List Int) :
    (samples.foldl pushSample acc).data.toList =
      acc.data.toList ++ samples.flatMap sampleWord := by
  induction samples generalizing acc with
  | nil => simp
  | cons s rest ih =>
      rw [List.foldl_cons, ih, toList_pushSample, List.flatMap_cons, List.append_assoc]

/-- The bytes of samples are their words in a row. -/
theorem pcmBytes_eq (samples : Array Int) :
    pcmBytes samples = (samples.toList.flatMap sampleWord).toByteArray := by
  refine ByteArray.ext (Array.toList_inj.mp ?_)
  rw [pcmBytes, ← Array.foldl_toList, toList_foldl_pushSample, List.toList_data_toByteArray]
  rfl

@[simp] theorem length_sampleWord (s : Int) : (sampleWord s).length = 2 :=
  length_leBytes 2 _

@[simp] theorem size_pcmBytes (samples : Array Int) :
    (pcmBytes samples).size = 2 * samples.size := by
  rw [pcmBytes_eq, List.size_toByteArray, List.length_flatMap]
  simp [List.map_const', Nat.mul_comm]

theorem sampleOfBytes_ofNat {n : Nat} (h : n < 65536) :
    sampleOfBytes (.ofNat n) (.ofNat (n / 256)) = (n : Int).bmod 65536 := by
  have hword : (UInt8.ofNat n).toNat + 256 * (UInt8.ofNat (n / 256)).toNat = n := by
    rw [UInt8.toNat_ofNat', UInt8.toNat_ofNat']
    omega
  exact congrArg (fun word : Nat => (word : Int).bmod 65536) hword

/-- A sixteen-bit sample is read back from its word, which is the sample up to a multiple of the
range. -/
theorem sampleOfBytes_word {s : Int} (h : IsSample s) :
    sampleOfBytes (.ofNat (s % 65536).toNat) (.ofNat ((s % 65536).toNat / 256)) = s := by
  have hlow : -32768 ≤ s := h.1
  have hhigh : s ≤ 32767 := h.2
  have hword : ((s % 65536).toNat : Int) = s % 65536 := by omega
  rw [sampleOfBytes_ofNat (by omega), hword]
  exact (Int.emod_bmod s 65536).trans (Int.bmod_eq_of_le (by omega) (by omega))

/-- Read back from their words, sixteen-bit samples are what they were. -/
theorem samplesOfBytes_flatMap {samples : List Int} (h : ∀ s ∈ samples, IsSample s) :
    samplesOfBytes (samples.flatMap sampleWord) = samples := by
  induction samples with
  | nil => rfl
  | cons s rest ih =>
      obtain ⟨hs, hrest⟩ := List.forall_mem_cons.mp h
      show sampleOfBytes _ _ :: samplesOfBytes (rest.flatMap sampleWord) = s :: rest
      rw [sampleOfBytes_word hs, ih hrest]

/-! ### Post-processing -/

/-- Valid settings are for one channel or two. -/
theorem AudioSettings.channels_of_validate {c : AudioSettings} (h : c.validate = .ok ()) :
    c.channels = 1 ∨ c.channels = 2 := by
  unfold validate at h
  split at h
  · cases h
  · omega

/-- A zero, of either sign, is not positive. -/
theorem Binary32.isPositive_zero (negative : Bool) : (zero negative).isPositive = false := by
  cases negative <;> decide

namespace Audio

variable {settings : AudioSettings} {samples : Array Int}

/-- A number that is held between the bounds of samples is one. -/
theorem isSample_toInt (round : Nat → Nat → Nat) (x : Binary32) :
    IsSample (x.toInt round minSample maxSample) := by
  unfold Binary32.toInt
  split
  · decide
  · split <;> decide
  · exact ⟨Int.le_max_left _ _, Int.max_le.mpr ⟨by decide, Int.min_le_left _ _⟩⟩

theorem isSample_normalize (h : ∀ s ∈ samples, IsSample s) : ∀ s ∈ normalize samples, IsSample s := by
  unfold normalize
  dsimp only
  split
  · exact h
  · intro s hs
    obtain ⟨a, -, rfl⟩ := Array.mem_map.mp hs
    exact isSample_toInt _ _

theorem isSample_fade (length : Nat) (h : ∀ s ∈ samples, IsSample s) :
    ∀ s ∈ fade length samples, IsSample s := by
  unfold fade
  split
  · exact h
  · intro s hs
    obtain ⟨i, hi, rfl⟩ := Array.mem_mapIdx.mp hs
    split
    · exact h _ (Array.getElem_mem hi)
    · exact isSample_toInt _ _

@[simp] theorem size_normalize (samples : Array Int) : (normalize samples).size = samples.size := by
  unfold normalize
  dsimp only
  split
  · rfl
  · exact Array.size_map

@[simp] theorem size_fade (length : Nat) (samples : Array Int) :
    (fade length samples).size = samples.size := by
  unfold fade
  split
  · rfl
  · exact Array.size_mapIdx

/-- The samples after the steps that come before they are spread over the channels. -/
def shape (settings : AudioSettings) (samples : Array Int) : Array Int :=
  let samples := if settings.normalize then normalize samples else samples
  if settings.fadeOut.isPositive then
    fade (fadeLength settings.fadeOut settings.sampleRate) samples
  else samples

theorem process_eq_spread (settings : AudioSettings) (samples : Array Int) :
    process settings samples = spread settings.channels (shape settings samples) := rfl

@[simp] theorem size_shape (settings : AudioSettings) (samples : Array Int) :
    (shape settings samples).size = samples.size := by
  unfold shape
  dsimp only
  split <;> split <;> simp

theorem isSample_shape (h : ∀ s ∈ samples, IsSample s) :
    ∀ s ∈ shape settings samples, IsSample s := by
  have hnormal : ∀ s ∈ (if settings.normalize then normalize samples else samples), IsSample s := by
    split
    · exact isSample_normalize h
    · exact h
  unfold shape
  dsimp only
  split
  · exact isSample_fade _ hnormal
  · exact hnormal

/-- Without normalising and fading, the samples stay as they are. -/
theorem shape_eq_self (hnormalize : settings.normalize = false)
    (hfade : settings.fadeOut.isPositive = false) (samples : Array Int) :
    shape settings samples = samples := by
  rw [shape, hnormalize, hfade]
  rfl

theorem toList_foldl_frames (frames : Array Int) (samples : List Int) :
    (samples.foldl (fun frames s => (frames.push s).push s) frames).toList =
      frames.toList ++ samples.flatMap (List.replicate 2) := by
  induction samples generalizing frames with
  | nil => simp
  | cons s rest ih => rw [List.foldl_cons, ih]; simp [List.replicate]

/-- Spread over one channel or two, every sample is repeated as often. -/
theorem toList_spread {channels : Nat} (h : channels = 1 ∨ channels = 2) (samples : Array Int) :
    (spread channels samples).toList = samples.toList.flatMap (List.replicate channels) := by
  rcases h with rfl | rfl
  · simp [spread, List.replicate]
  · rw [spread, if_pos rfl, ← Array.foldl_toList, toList_foldl_frames]
    rfl

/-- With one channel, a frame is a sample. -/
theorem process_mono (settings : AudioSettings) (samples : Array Int) :
    process { settings with channels := 1 } samples = shape settings samples := rfl

section

variable (h : settings.channels = 1 ∨ settings.channels = 2)

include h

/-- The frames are the samples of a single channel, each repeated for every channel. -/
theorem toList_process (samples : Array Int) :
    (process settings samples).toList =
      (process { settings with channels := 1 } samples).toList.flatMap
        (List.replicate settings.channels) := by
  rw [process_mono, process_eq_spread, toList_spread h]

theorem size_process (samples : Array Int) :
    (process settings samples).size = settings.channels * samples.size := by
  rw [← Array.length_toList, toList_process h, process_mono, List.length_flatMap]
  simp [List.map_const', Nat.mul_comm]

/-- What is left to store are sixteen-bit samples. -/
theorem isSample_process (hsamples : ∀ s ∈ samples, IsSample s) :
    ∀ s ∈ process settings samples, IsSample s := by
  intro s hs
  rw [← Array.mem_toList_iff, toList_process h] at hs
  obtain ⟨a, ha, hs⟩ := List.mem_flatMap.mp hs
  rw [List.eq_of_mem_replicate hs]
  exact isSample_shape hsamples a (Array.mem_toList_iff.mp ha)

end

end Audio

end Chiptune
