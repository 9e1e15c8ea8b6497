import Chiptune.Chip.Amplitude
import Chiptune.Chip.Bus

/-!
# Chip — Tone voice

A square wave.  A counter runs down once per channel clock; when it runs out the output flips and
the counter starts again from the period register.  A period write changes the register alone, so
a running count is never disturbed (`counter_write`, `phase_write`).
-/

namespace Chiptune

/-- The state of a tone voice. -/
structure Tone where
  /-- Attenuation level while the output is high. -/
  volume : Nat := silentLevel
  /-- The ten-bit period register. -/
  period : Nat := 0
  /-- Channel clocks left before the output flips. -/
  counter : Nat := 0
  /-- Whether the output is high. -/
  phase : Bool := false
  deriving DecidableEq

namespace Tone

/-- A silent tone with an empty period register. -/
def powerOn : Tone := {}

instance : Inhabited Tone := ⟨powerOn⟩

/-- One channel clock; a counter of 0 or 1 runs out at once. -/
def clock (t : Tone) : Tone :=
  if t.counter ≤ 1 then { t with counter := t.period, phase := !t.phase }
  else { t with counter := t.counter - 1 }

/-- A register write: a narrow period write replaces the low four bits of the register, a wide
one its high six, and a volume write of either width takes the low four data bits. -/
def write (t : Tone) (register : Register) (width : Width) (data : Nat) : Tone :=
  match register, width with
  | .volume, _ => { t with volume := data % 16 }
  | .period, .narrow => { t with period := t.period / 16 % 64 * 16 + data % 16 }
  | .period, .wide => { t with period := data % 64 * 16 + t.period % 16 }

/-- The attenuation level put out: the volume while the output is high, silence while it is low. -/
def level (t : Tone) : Nat :=
  if t.phase then t.volume else silentLevel

@[simp] theorem period_clock (t : Tone) : t.clock.period = t.period := by
  unfold clock
  split <;> rfl

@[simp] theorem volume_clock (t : Tone) : t.clock.volume = t.volume := by
  unfold clock
  split <;> rfl

@[simp] theorem counter_write (t : Tone) (r : Register) (w : Width) (d : Nat) :
    (t.write r w d).counter = t.counter := by
  cases r <;> cases w <;> rfl

@[simp] theorem phase_write (t : Tone) (r : Register) (w : Width) (d : Nat) :
    (t.write r w d).phase = t.phase := by
  cases r <;> cases w <;> rfl

end Tone

end Chiptune
