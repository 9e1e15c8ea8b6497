import Chiptune.Chip.Noise

/-!
# Chip — The sound chip

Three tones, a noise voice, the write latch and the prescaler they share.  The chip is stepped in
cycles of its master clock; every sixteenth cycle clocks the four voices once (`cycle`, `advance`).
Between steps it takes bytes from the bus (`write`) and can be asked for its mixed output
(`sample`).  The host may mute voices; mutes belong to the host and outlive a reset.
-/

namespace Chiptune

/-- Master-clock cycles per channel clock. -/
def prescale : Nat := 16

/-- The state of the chip. -/
structure Chip where
  tone0 : Tone := .powerOn
  tone1 : Tone := .powerOn
  tone2 : Tone := .powerOn
  noise : Noise := .powerOn
  /-- Cycles left until the next channel clock. -/
  divider : Nat := prescale
  /-- The register that data bytes go to. -/
  latch : Target := ⟨.tone0, .period⟩
  mutes : PerVoice Bool := PerVoice.const false
  deriving DecidableEq

namespace Chip

/-- The chip as it comes up, with every voice audible. -/
def powerOn : Chip := {}

instance : Inhabited Chip := ⟨powerOn⟩

/-- A tone voice by number. -/
def tone (c : Chip) : Fin 3 → Tone
  | 0 => c.tone0
  | 1 => c.tone1
  | 2 => c.tone2

/-- A tone voice by number, if there is one. -/
def tone? (c : Chip) (index : Nat) : Option Tone :=
  if h : index < 3 then some (c.tone ⟨index, h⟩) else none

/-- Every voice, the divider and the latch back to power-on; the mutes stay. -/
def reset (c : Chip) : Chip :=
  { c with
    tone0 := .powerOn
    tone1 := .powerOn
    tone2 := .powerOn
    noise := .powerOn
    divider := prescale
    latch := ⟨.tone0, .period⟩ }

/-! ### Writes -/

/-- Write data to a register of a voice. -/
def writeTo (c : Chip) (target : Target) (width : Width) (data : Nat) : Chip :=
  match target.voice with
  | .tone0 => { c with tone0 := c.tone0.write target.register width data }
  | .tone1 => { c with tone1 := c.tone1.write target.register width data }
  | .tone2 => { c with tone2 := c.tone2.write target.register width data }
  | .noise => { c with noise := c.noise.write target.register data }

/-- Write a byte: a latch byte moves the latch and writes its four bits, a data byte
writes its six bits where the latch points. -/
def write (c : Chip) (byte : UInt8) : Chip :=
  match BusWrite.decode byte with
  | .latch target data => { c with latch := target }.writeTo target .narrow data
  | .data data => c.writeTo c.latch .wide data

/-- Write bytes, first to last. -/
def writeAll (c : Chip) (bytes : List UInt8) : Chip :=
  bytes.foldl write c

/-! ### Time -/

/-- One clock of all four voices; the noise sees tone 2 as this clock leaves it. -/
def clockVoices (c : Chip) : Chip :=
  let tone2 := c.tone2.clock
  { c with
    tone0 := c.tone0.clock
    tone1 := c.tone1.clock
    tone2 := tone2
    noise := c.noise.clock tone2.period }

/-- One cycle of the master clock: the divider counts down, and the cycle that empties it clocks
the voices and fills it again. -/
def cycle (c : Chip) : Chip :=
  if c.divider ≤ 1 then { c.clockVoices with divider := prescale }
  else { c with divider := c.divider - 1 }

/-- A number of cycles of the master clock. -/
def advance (c : Chip) : Nat → Chip
  | 0 => c
  | n + 1 => c.cycle.advance n

/-! ### Output -/

/-- The attenuation levels the voices put out. -/
def levels (c : Chip) : PerVoice Nat where
  tone0 := c.tone0.level
  tone1 := c.tone1.level
  tone2 := c.tone2.level
  noise := c.noise.level

/-- The mixed output, unclipped. -/
def sample (c : Chip) : Nat :=
  mix c.mutes c.levels

/-- Mute or unmute a voice by number; a number without a voice changes nothing. -/
def setMute (c : Chip) (index : Nat) (muted : Bool) : Chip :=
  match Voice.ofIndex? index with
  | some v => { c with mutes := c.mutes.set v muted }
  | none => c

/-- Whether the voice with this number is muted; a number without a voice is not. -/
def isMuted (c : Chip) (index : Nat) : Bool :=
  match Voice.ofIndex? index with
  | some v => c.mutes.get v
  | none => false

/-! ### Laws of the steps -/

@[simp] theorem advance_zero (c : Chip) : c.advance 0 = c := rfl

@[simp] theorem advance_succ (c : Chip) (n : Nat) : c.advance (n + 1) = c.cycle.advance n := rfl

/-- Steps add up: it does not matter how a stretch of time is cut. -/
theorem advance_add (c : Chip) (m n : Nat) : c.advance (m + n) = (c.advance m).advance n := by
  induction m generalizing c with
  | zero => simp
  | succ m ih => rw [Nat.succ_add, advance_succ, advance_succ, ih]

@[simp] theorem mutes_reset (c : Chip) : c.reset.mutes = c.mutes := rfl

/-! ### The registers in words -/

/-- The registers of the chip in one line. -/
def describe (c : Chip) : String :=
  let latch := match c.latch.register with
    | .period => "Period"
    | .volume => "Volume"
  s!"Sn76489 \x7b tone_periods: [{c.tone0.period}, {c.tone1.period}, {c.tone2.period}], " ++
    s!"tone_volumes: [{c.tone0.volume}, {c.tone1.volume}, {c.tone2.volume}], " ++
    s!"noise_rate: {c.noise.rate.bits}, noise_white: {c.noise.white}, " ++
    s!"noise_volume: {c.noise.volume}, latched: ({c.latch.voice.index}, {latch}) \x7d"

end Chip

end Chiptune
