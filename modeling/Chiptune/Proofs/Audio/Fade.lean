import Chiptune.Proofs.Audio.Pcm

/-!
# Audio — Fade

What a fade leaves of the samples.

* `frame_process`: the frame of a sample holds it in every channel; so a fade is looked at frame by
  frame.
* `getElem?_fade`: a fade leaves every sample in front of it as it was, and scales each of the
  others by its place in the fade.
* `Binary32.div_self`: a number divided by itself is one, or no number at all; so the last place of
  a fade scales every sample to zero (`fadeSample_last`).
* `process_fadeOut`: a fade that starts inside the samples ends in silence.
* `process_fadeOut_too_long`: one that starts in front of them does not.  Its slope is that of the
  whole length, so it gets no further down than the samples reach into it.
-/

namespace Chiptune

/-! ### A number divided by itself -/

theorem floorLog2_self (n : Nat) : floorLog2 n n = 0 := by
  unfold floorLog2
  rw [Int.sub_self]
  exact if_neg (Nat.lt_irrefl _)

theorem BinaryFormat.nearest_self {n : Nat} (h : 0 < n) :
    BinaryFormat.single.nearest n n = ⟨Nat.pow 2 23, -23⟩ := by
  have hexponent : max (floorLog2 n n - (BinaryFormat.single.precision - 1 : Nat))
      BinaryFormat.single.minExponent = -23 := by
    rw [floorLog2_self]
    decide
  have hmantissa : roundDiv .toEven (n * Nat.pow 2 23) (n * Nat.pow 2 0) = Nat.pow 2 23 := by
    have hone : n * Nat.pow 2 0 = n := Nat.mul_one n
    rw [hone, Nat.mul_comm, roundDiv_mul_right .toEven _ h]
  refine (if_neg (Nat.ne_of_gt h)).trans ?_
  simp only [hexponent]
  exact congrArg (Dyadic.mk · (-23)) hmantissa

namespace Binary32

theorem value_nan : nan.value = .nan := by
  decide

theorem value_zero (negative : Bool) : (zero negative).value = .finite negative ⟨0, -149⟩ := by
  cases negative <;> decide

theorem ofRatio_self {n : Nat} (h : 0 < n) : ofRatio false n n = 1 := by
  have hnearest : BinaryFormat.single.nearest n n = BinaryFormat.single.nearest 1 1 := by
    rw [BinaryFormat.nearest_self h, BinaryFormat.nearest_self Nat.one_pos]
  have hone : (1 : Binary32) = ofRatio false 1 1 := rfl
  rw [hone]
  unfold ofRatio
  rw [hnearest]

theorem ofRatio_zero (negative : Bool) (den : Nat) : ofRatio negative 0 den = zero negative := by
  have hnearest : BinaryFormat.single.nearest 0 den = ⟨0, -149⟩ := if_pos rfl
  unfold ofRatio
  rw [hnearest]
  cases negative <;> decide

/-- A number divided by itself is one; infinity, zero and what is no number give no number. -/
theorem div_self (x : Binary32) : x / x = 1 ∨ x / x = nan := by
  show x.div x = 1 ∨ x.div x = nan
  unfold div
  cases x.value with
  | nan => exact .inr rfl
  | infinite s => exact .inr rfl
  | finite s a =>
      by_cases ha : a.mantissa = 0
      · exact .inr (by simp only [ha, ↓reduceIte])
      · have hnum : 0 < a.num := Nat.mul_pos (Nat.pos_of_ne_zero ha) (Nat.two_pow_pos _)
        refine .inl ?_
        simp only [ha, ↓reduceIte, Bool.xor_self]
        rw [Nat.mul_comm a.den]
        exact ofRatio_self (Nat.mul_pos hnum a.den_pos)

theorem one_sub_one : (1 : Binary32) - 1 = zero false := by
  decide +kernel

theorem one_sub_nan : (1 : Binary32) - nan = nan := by
  decide +kernel

/-! ### Products with zero -/

/-- A number that is zero, of either sign, or no number. -/
def IsNothing (x : Binary32) : Prop :=
  x = nan ∨ ∃ negative, x = zero negative

/-- What is nothing has the integer part zero. -/
theorem IsNothing.truncate {x : Binary32} (h : x.IsNothing) {low high : Int} (hlow : low ≤ 0)
    (hhigh : 0 ≤ high) : x.truncate low high = 0 := by
  rcases h with rfl | ⟨s, rfl⟩
  · rw [Binary32.truncate, toInt, value_nan]
  · have hnum : Dyadic.num ⟨0, -149⟩ = 0 := Nat.zero_mul _
    rw [Binary32.truncate, toInt, value_zero]
    simp only [hnum, Nat.zero_div]
    cases s
    · show max low (min high 0) = 0
      omega
    · show max low (min high (-0)) = 0
      omega

theorem mul_comm (x y : Binary32) : x * y = y * x := by
  show x.mul y = y.mul x
  unfold mul
  cases x.value <;> cases y.value <;> simp [Bool.xor_comm, Nat.mul_comm, Int.add_comm]

theorem isNothing_mul_nan (x : Binary32) : (x * nan).IsNothing := by
  refine .inl ?_
  show x.mul nan = nan
  unfold mul
  rw [value_nan]
  cases x.value <;> rfl

/-- A number times zero is zero; infinity times zero is no number. -/
theorem isNothing_mul {x y : Binary32} {s : Bool} {d : Dyadic} (hy : y.value = .finite s d)
    (hd : d.mantissa = 0) : (x * y).IsNothing := by
  show (x.mul y).IsNothing
  unfold mul
  rw [hy]
  cases x.value with
  | nan => exact .inl rfl
  | infinite t => exact .inl (if_pos hd)
  | finite t a =>
      have hnum : Dyadic.num ⟨a.mantissa * d.mantissa, a.exponent + d.exponent⟩ = 0 := by
        rw [Dyadic.num, hd, Nat.mul_zero, Nat.zero_mul]
      refine .inr ⟨t ^^ s, ?_⟩
      show ofRatio _ (Dyadic.num _) _ = _
      rw [hnum, ofRatio_zero]

/-- A finite number that is neither below nor above zero is zero. -/
theorem value_of_not_isPositive {x : Binary32} (hfinite : x.isFinite = true)
    (hnegative : x.isNegative = false) (hpositive : x.isPositive = false) :
    ∃ s d, x.value = .finite s d ∧ d.mantissa = 0 := by
  rw [isFinite] at hfinite
  rw [isNegative] at hnegative
  rw [isPositive] at hpositive
  cases hx : x.value with
  | nan => simp [hx] at hfinite
  | infinite s => simp [hx] at hfinite
  | finite s d =>
      refine ⟨s, d, rfl, ?_⟩
      rw [hx] at hnegative hpositive
      cases s
      · simpa using hpositive
      · simpa using hnegative

end Binary32

/-- Valid settings fade over a number of seconds that is finite and not below zero. -/
theorem AudioSettings.fadeOut_of_validate {c : AudioSettings} (h : c.validate = .ok ()) :
    c.fadeOut.isFinite = true ∧ c.fadeOut.isNegative = false := by
  unfold validate at h
  split at h
  · cases h
  · split at h
    · cases h
    · split at h
      · cases h
      · rename_i hfade
        rw [not_or, Bool.not_eq_false, Bool.not_eq_true] at hfade
        exact hfade

namespace Audio

/-! ### The samples of a fade -/

/-- The last place of a fade scales every sample to zero. -/
theorem fadeSample_last {length : Nat} (h : 0 < length) (sample : Int) :
    fadeSample length (length - 1) sample = 0 := by
  have hlast : length - 1 + 1 = length := Nat.sub_add_cancel h
  have hnothing : (Binary32.ofInt sample *
      (1 - Binary32.ofNat length / Binary32.ofNat length)).IsNothing := by
    rcases Binary32.div_self (Binary32.ofNat length) with hone | hnan
    · rw [hone, Binary32.one_sub_one]
      exact Binary32.isNothing_mul (Binary32.value_zero false) rfl
    · rw [hnan, Binary32.one_sub_nan]
      exact Binary32.isNothing_mul_nan _
  rw [fadeSample, hlast]
  exact hnothing.truncate (by decide) (by decide)

/-- A fade leaves the samples in front of it, and scales each of the others by its place in it. -/
theorem getElem?_fade {length : Nat} (hlength : 0 < length) (samples : Array Int) (i : Nat) :
    (fade length samples)[i]? = samples[i]?.map fun s =>
      if i < samples.size - length then s
      else fadeSample length (i - (samples.size - length)) s := by
  rw [fade, if_neg (Nat.ne_of_gt hlength)]
  exact Array.getElem?_mapIdx

/-- Only what is above zero is a number of seconds that takes a sample or more. -/
theorem isPositive_of_fadeLength {settings : AudioSettings} (hvalid : settings.validate = .ok ())
    (hlength : 0 < fadeLength settings.fadeOut settings.sampleRate) :
    settings.fadeOut.isPositive = true := by
  obtain ⟨hfinite, hnegative⟩ := AudioSettings.fadeOut_of_validate hvalid
  cases hpositive : settings.fadeOut.isPositive with
  | true => rfl
  | false =>
      obtain ⟨s, d, hvalue, hzero⟩ :=
        Binary32.value_of_not_isPositive hfinite hnegative hpositive
      have hnothing : (settings.fadeOut * Binary32.ofNat settings.sampleRate).IsNothing := by
        rw [Binary32.mul_comm]
        exact Binary32.isNothing_mul hvalue hzero
      rw [fadeLength, hnothing.truncate (Int.le_refl 0) (Int.natCast_nonneg _)] at hlength
      exact absurd hlength (Nat.lt_irrefl 0)

/-- The settings without the fade. -/
def withoutFade (settings : AudioSettings) : AudioSettings :=
  { settings with fadeOut := .zero false }

theorem shape_of_isPositive {settings : AudioSettings} (h : settings.fadeOut.isPositive = true)
    (samples : Array Int) :
    shape settings samples =
      fade (fadeLength settings.fadeOut settings.sampleRate)
        (shape (withoutFade settings) samples) := by
  have hnone : (withoutFade settings).fadeOut.isPositive = false :=
    Binary32.isPositive_zero false
  rw [shape, shape, h, hnone]
  rfl

/-! ### Frames -/

/-- The values of a frame, one for each channel. -/
def frame (channels : Nat) (values : Array Int) (i : Nat) : List Int :=
  (values.toList.drop (channels * i)).take channels

theorem take_drop_frames (channels : Nat) (samples : List Int) (i : Nat) :
    ((samples.flatMap (List.replicate channels)).drop (channels * i)).take channels =
      samples[i]?.elim [] (List.replicate channels) := by
  induction samples generalizing i with
  | nil => simp
  | cons s rest ih =>
      have hframe : (List.replicate channels s).length = channels := List.length_replicate
      cases i with
      | zero => exact List.take_left' hframe
      | succ i =>
          have hpast : channels * (i + 1) = (List.replicate channels s).length + channels * i := by
            rw [hframe, Nat.mul_succ, Nat.add_comm]
          rw [List.flatMap_cons, hpast, List.drop_length_add_append, ih, List.getElem?_cons_succ]

theorem frame_process {settings : AudioSettings}
    (h : settings.channels = 1 ∨ settings.channels = 2) (samples : Array Int) (i : Nat) :
    frame settings.channels (process settings samples) i =
      (shape settings samples)[i]?.elim [] (List.replicate settings.channels) := by
  rw [frame, toList_process h, process_mono, take_drop_frames, Array.getElem?_toList]

theorem frame_process_withoutFade {settings : AudioSettings}
    (h : settings.channels = 1 ∨ settings.channels = 2) (samples : Array Int) (i : Nat) :
    frame settings.channels (process (withoutFade settings) samples) i =
      (shape (withoutFade settings) samples)[i]?.elim [] (List.replicate settings.channels) :=
  @frame_process (withoutFade settings) h samples i

/-! ### The fade of an export -/

/-- What the fade makes of the frames, against those without it. -/
structure FadesOut (settings : AudioSettings) (samples : Array Int) (length : Nat) : Prop where
  /-- There is still a frame for every sample. -/
  size : (process settings samples).size = settings.channels * samples.size
  size_plain : (process (withoutFade settings) samples).size = settings.channels * samples.size
  /-- The frames in front of the fade are what they are without it, -/
  before : ∀ i, i + length < samples.size →
    frame settings.channels (process settings samples) i =
      frame settings.channels (process (withoutFade settings) samples) i
  /-- those in it are scaled by their place. -/
  within : ∀ i, samples.size ≤ i + length →
    frame settings.channels (process settings samples) i =
      (frame settings.channels (process (withoutFade settings) samples) i).map
        (fadeSample length (i - (samples.size - length)))
  /-- A fade that starts inside the samples ends in silence, -/
  silent : length ≤ samples.size →
    frame settings.channels (process settings samples) (samples.size - 1) =
      List.replicate settings.channels 0
  /-- one that is longer stops at the place that the samples reach in it. -/
  cut : samples.size ≤ length →
    frame settings.channels (process settings samples) (samples.size - 1) =
      (frame settings.channels (process (withoutFade settings) samples) (samples.size - 1)).map
        (fadeSample length (samples.size - 1))

section

variable {settings : AudioSettings} {length : Nat} (hvalid : settings.validate = .ok ())
  (hlength : fadeLength settings.fadeOut settings.sampleRate = length) (hpos : 0 < length)

include hvalid hlength hpos

/-- A frame of the faded samples, from that of the samples without the fade. -/
theorem frame_process_fade (samples : Array Int) (i : Nat) :
    frame settings.channels (process settings samples) i =
      (frame settings.channels (process (withoutFade settings) samples) i).map fun s =>
        if i < samples.size - length then s
        else fadeSample length (i - (samples.size - length)) s := by
  have hchannels := AudioSettings.channels_of_validate hvalid
  have hfade := shape_of_isPositive (isPositive_of_fadeLength hvalid (hlength ▸ hpos)) samples
  rw [frame_process hchannels, frame_process_withoutFade hchannels, hfade, hlength,
    getElem?_fade hpos, size_shape]
  cases (shape (withoutFade settings) samples)[i]? with
  | none => rfl
  | some s => rw [Option.map_some, Option.elim_some, Option.elim_some, List.map_replicate]

/-- A frame of the fade is scaled by its place. -/
theorem frame_process_within {samples : Array Int} {i : Nat} (hi : samples.size ≤ i + length) :
    frame settings.channels (process settings samples) i =
      (frame settings.channels (process (withoutFade settings) samples) i).map
        (fadeSample length (i - (samples.size - length))) := by
  have hfaded : ¬ i < samples.size - length := by omega
  rw [frame_process_fade hvalid hlength hpos]
  simp only [hfaded, if_false]

/-- With room for the fade, the last frame has the last place in it. -/
theorem frame_process_last {samples : Array Int} (hroom : length ≤ samples.size) :
    frame settings.channels (process settings samples) (samples.size - 1) =
      List.replicate settings.channels 0 := by
  have hplace : samples.size - 1 - (samples.size - length) = length - 1 := by omega
  have hinside : samples.size - 1 < (shape (withoutFade settings) samples).size := by
    rw [size_shape]
    omega
  rw [frame_process_within hvalid hlength hpos (by omega), hplace,
    frame_process_withoutFade (AudioSettings.channels_of_validate hvalid),
    Array.getElem?_eq_getElem hinside, Option.elim_some, List.map_replicate, fadeSample_last hpos]

/-- **The fade out.**  With valid settings whose fade takes a sample or more, there are as many
frames as without the fade, and those in front of the fade are the same.  A fade that the samples
have room for ends in silence, in every channel; one that they have no room for ends at the scale of
the last place they reach. -/
theorem process_fadeOut (samples : Array Int) : FadesOut settings samples length where
  size := size_process (AudioSettings.channels_of_validate hvalid) samples
  size_plain := by
    have hchannels := AudioSettings.channels_of_validate hvalid
    exact @size_process (withoutFade settings) hchannels samples
  before i hi := by
    have hfront : i < samples.size - length := by omega
    rw [frame_process_fade hvalid hlength hpos]
    simp only [hfront, if_true, List.map_id']
  within i hi := frame_process_within hvalid hlength hpos hi
  silent hroom := frame_process_last hvalid hlength hpos hroom
  cut hshort := by
    have hplace : samples.size - 1 - (samples.size - length) = samples.size - 1 := by omega
    rw [frame_process_within hvalid hlength hpos (by omega), hplace]

end

/-- Half a second at eight samples a second, in two channels. -/
theorem process_fadeOut_half_second :
    let settings : AudioSettings := { sampleRate := 8, channels := 2, fadeOut := ⟨0x3F000000⟩ }
    settings.validate = .ok () ∧ fadeLength settings.fadeOut settings.sampleRate = 4 ∧
      FadesOut settings #[10000, 10000, 10000, 10000, 10000] 4 ∧
      frame 2 (process settings #[10000, 10000, 10000, 10000, 10000]) 4 = [0, 0] := by
  intro settings
  have hvalid : settings.validate = .ok () := by decide
  have hlength : fadeLength settings.fadeOut settings.sampleRate = 4 := by decide +kernel
  have hfades := process_fadeOut hvalid hlength (by decide) #[10000, 10000, 10000, 10000, 10000]
  exact ⟨hvalid, hlength, hfades, hfades.silent (by decide)⟩

/-- A second at two samples a second, and only a single sample: it is halved, and not silent. -/
theorem process_fadeOut_too_long :
    let settings : AudioSettings := { sampleRate := 2, fadeOut := 1 }
    settings.validate = .ok () ∧ fadeLength settings.fadeOut settings.sampleRate = 2 ∧
      process settings #[10000] = #[5000] ∧
      frame 1 (process settings #[10000]) 0 ≠ List.replicate 1 0 := by
  intro settings
  have hprocess : process settings #[10000] = #[5000] := by decide +kernel
  refine ⟨by decide +kernel, by decide +kernel, hprocess, ?_⟩
  rw [hprocess]
  decide

end Audio
end Chiptune
