import Chiptune.Chip

/-!
# Device — Sound devices

What a player needs of a sound chip: a bus to write to, time to advance, and an output to read.
Rendering is defined once for every device: each sample is one stretch of cycles followed by one
reading (`renderSample`, `renderSamples`).
-/

namespace Chiptune

/-- A state that can be driven like a sound chip. -/
class SoundDevice (σ : Type) where
  /-- Back to power-on. -/
  reset : σ → σ
  /-- Write one byte. -/
  write : σ → UInt8 → σ
  /-- Step by a number of master-clock cycles. -/
  advance : σ → Nat → σ
  /-- The output of the current state. -/
  sample : σ → Int

namespace SoundDevice

variable {σ : Type} [SoundDevice σ]

/-- Step by the cycles of one sample and read the output. -/
def renderSample (device : σ) (cycles : Nat) : σ × Int :=
  let device := advance device cycles
  (device, sample device)

/-- Render `count` samples of `cycles` cycles each, adding them to `samples`. -/
def renderSamples (device : σ) (samples : Array Int) (cycles : Nat) : Nat → σ × Array Int
  | 0 => (device, samples)
  | count + 1 =>
    let device := advance device cycles
    renderSamples device (samples.push (sample device)) cycles count

theorem renderSamples_succ (device : σ) (samples : Array Int) (cycles count : Nat) :
    renderSamples device samples cycles (count + 1) =
      renderSamples (renderSample device cycles).1 (samples.push (renderSample device cycles).2)
        cycles count := rfl

/-- Rendering adds exactly the samples asked for. -/
@[simp] theorem size_renderSamples (device : σ) (samples : Array Int) (cycles count : Nat) :
    (renderSamples device samples cycles count).2.size = samples.size + count := by
  induction count generalizing device samples with
  | zero => rfl
  | succ count ih => rw [renderSamples_succ, ih, Array.size_push]; omega

end SoundDevice

instance : SoundDevice Chip where
  reset := Chip.reset
  write := Chip.write
  advance := Chip.advance
  sample c := c.sample

end Chiptune
