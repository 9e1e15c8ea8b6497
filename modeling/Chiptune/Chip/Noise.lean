import Chiptune.Chip.Tone

/-!
# Chip — Noise voice

A sixteen-bit shift register behind a counter.  Every second time the counter runs out, bit 0 of
the register becomes the output and the register shifts right; the bit fed in at the top is the one
shifted out (periodic noise) or its exclusive or with bit 3 (white noise).  The counter starts
again from one of three fixed periods or from the period register of tone 2, read at that moment.
-/

namespace Chiptune

/-- Where the noise counter starts again from. -/
inductive NoiseRate where
  | high
  | medium
  | low
  | tone2
  deriving DecidableEq, Inhabited

namespace NoiseRate

/-- The rate selected by the low two bits of a control write.  The other bits are masked out here, so
every rate is in its range. -/
def ofBits (n : Nat) : NoiseRate :=
  match n % 4 with
  | 0 => high
  | 1 => medium
  | 2 => low
  | _ => tone2

/-- The two bits that select a rate. -/
def bits : NoiseRate → Nat
  | high => 0
  | medium => 1
  | low => 2
  | tone2 => 3

/-- The period of a rate, given that of tone 2. -/
def period (tone2Period : Nat) : NoiseRate → Nat
  | high => 0x10
  | medium => 0x20
  | low => 0x40
  | tone2 => tone2Period

end NoiseRate

/-- The sixteen-bit register that makes the noise. -/
abbrev ShiftRegister := BitVec 16

namespace ShiftRegister

/-- The register at power-on. -/
def seed : ShiftRegister := 0x8000#16

/-- The bit fed in at the top by the next shift. -/
def feedback (white : Bool) (r : ShiftRegister) : Bool :=
  r.getLsbD 0 ^^ (white && r.getLsbD 3)

/-- One shift to the right. -/
def shift (white : Bool) (r : ShiftRegister) : ShiftRegister :=
  (r >>> 1) ||| (if feedback white r then 0x8000#16 else 0#16)

end ShiftRegister

/-- The state of the noise voice. -/
structure Noise where
  /-- Attenuation level while the output is high. -/
  volume : Nat := silentLevel
  rate : NoiseRate := .high
  /-- White noise; periodic noise when false. -/
  white : Bool := false
  /-- Channel clocks left before the counter runs out. -/
  counter : Nat := 0x10
  /-- Set while the next run-out shifts nothing. -/
  toggle : Bool := false
  /-- Whether the output is high. -/
  phase : Bool := false
  register : ShiftRegister := ShiftRegister.seed
  deriving DecidableEq

namespace Noise

/-- A silent noise voice with the seed in its register. -/
def powerOn : Noise := {}

instance : Inhabited Noise := ⟨powerOn⟩

/-- The value the counter starts again from. -/
def nextPeriod (n : Noise) (tone2Period : Nat) : Nat :=
  n.rate.period tone2Period

/-- What happens when the counter runs out: every second time the output takes bit 0 of the
register and the register shifts. -/
def cross (n : Noise) : Noise :=
  if n.toggle then { n with toggle := false }
  else
    { n with
      toggle := true
      phase := n.register.getLsbD 0
      register := ShiftRegister.shift n.white n.register }

/-- One channel clock, while the period register of tone 2 holds `tone2Period`. -/
def clock (n : Noise) (tone2Period : Nat) : Noise :=
  if n.counter ≤ 1 then { n.cross with counter := n.nextPeriod tone2Period }
  else { n with counter := n.counter - 1 }

/-- A register write of either width: the control register takes the rate from data bits 0 and 1
and the feedback from bit 2, and the volume the low four bits.  The shift register keeps its
contents. -/
def write (n : Noise) (register : Register) (data : Nat) : Noise :=
  match register with
  | .volume => { n with volume := data % 16 }
  | .period => { n with rate := NoiseRate.ofBits data, white := data / 4 % 2 == 1 }

/-- The attenuation level put out: the volume while the output is high, silence while it is low. -/
def level (n : Noise) : Nat :=
  if n.phase then n.volume else silentLevel

@[simp] theorem register_write (n : Noise) (r : Register) (d : Nat) :
    (n.write r d).register = n.register := by
  cases r <;> rfl

@[simp] theorem counter_write (n : Noise) (r : Register) (d : Nat) :
    (n.write r d).counter = n.counter := by
  cases r <;> rfl

@[simp] theorem toggle_write (n : Noise) (r : Register) (d : Nat) :
    (n.write r d).toggle = n.toggle := by
  cases r <;> rfl

@[simp] theorem phase_write (n : Noise) (r : Register) (d : Nat) :
    (n.write r d).phase = n.phase := by
  cases r <;> rfl

end Noise

end Chiptune
