import Chiptune.Audio.Settings

/-!
# Audio — Post-processing

The three steps between rendering and writing, each optional: normalising scales the samples so that
the largest magnitude lands just below full scale, fading takes the end of the samples down to
silence along a straight line, and a sample becomes a frame by being repeated for every channel.
All arithmetic is in binary32, each operation rounded by itself.
-/

namespace Chiptune
namespace Audio

/-- The least sixteen-bit sample. -/
def minSample : Int := -32768

/-- The greatest sixteen-bit sample. -/
def maxSample : Int := 32767

/-- The part of full scale a normalised peak reaches: 0.95. -/
def headroom : Binary32 := ⟨0x3F733333⟩

/-- The largest magnitude among samples. -/
def peak (samples : Array Int) : Nat :=
  samples.foldl (fun m s => max m s.natAbs) 0

/-- The factor that brings a peak to the headroom. -/
def normalizeScale (peak : Nat) : Binary32 :=
  headroom * Binary32.ofInt maxSample / Binary32.ofNat peak

/-- A sample times a factor, rounded to the nearest sample. -/
def scaleSample (scale : Binary32) (sample : Int) : Int :=
  (Binary32.ofInt sample * scale).round minSample maxSample

/-- The samples scaled so that their peak reaches the headroom; silence stays as it is. -/
def normalize (samples : Array Int) : Array Int :=
  let top := peak samples
  if top = 0 then samples else samples.map (scaleSample (normalizeScale top))

/-- How many samples a fade of some seconds takes, the fraction of a sample dropped and at most what
fits sixty-four bits. -/
def fadeLength (seconds : Binary32) (rate : Nat) : Nat :=
  ((seconds * Binary32.ofNat rate).truncate 0 (Nat.pow 2 64 - 1 : Nat)).toNat

/-- The sample `step` places into a fade, of its integer part. -/
def fadeSample (length step : Nat) (sample : Int) : Int :=
  let progress := Binary32.ofNat (step + 1) / Binary32.ofNat length
  (Binary32.ofInt sample * (1 - progress)).truncate minSample maxSample

/-- The samples with the last `length` of them faded, or all if there are fewer; then the slope is
still that of the whole length. -/
def fade (length : Nat) (samples : Array Int) : Array Int :=
  if length = 0 then samples
  else
    let start := samples.size - length
    samples.mapIdx fun i s => if i < start then s else fadeSample length (i - start) s

/-- Every sample repeated for each channel. -/
def spread (channels : Nat) (samples : Array Int) : Array Int :=
  if channels = 2 then samples.foldl (fun frames s => (frames.push s).push s) #[] else samples

/-- The samples as valid settings want them. -/
def process (settings : AudioSettings) (samples : Array Int) : Array Int :=
  let samples := if settings.normalize then normalize samples else samples
  let samples :=
    if settings.fadeOut.isPositive then
      fade (fadeLength settings.fadeOut settings.sampleRate) samples
    else samples
  spread settings.channels samples

end Audio
end Chiptune
