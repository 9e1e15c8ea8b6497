import Chiptune.Device
import Chiptune.Vgm.Command
import Chiptune.Vgm.ChipTime

/-!
# VGM — Player

A player walks the commands of an image and drives a sound device with them.  A byte to be written
goes to the device; a wait renders samples, never past the declared length; the end marker stops.  A
run (`Player.run`) ends when the declared length is reached, at the end marker, or at the first
position that cannot be read, and then the samples stay in the player.

Every instruction has at least one byte and lies inside the image, so the distance from the cursor
to the end of the image bounds the walk.
-/

namespace Chiptune

/-- A player in the middle of an image. -/
structure Player (σ : Type) where
  image : ByteArray
  /-- Clock of the chip in Hz. -/
  clock : Nat
  /-- The declared length in samples. -/
  target : Nat
  device : σ
  /-- Position of the next instruction. -/
  cursor : Nat
  /-- Samples rendered since the last finished run. -/
  samples : Array Int
  /-- Instructions executed so far. -/
  executed : Nat
  /-- The cycles the device was given. -/
  time : ChipTime

/-- A finished run. -/
structure Rendering where
  samples : Array Int
  cyclesPerSample : Nat
  /-- Cycles the chip was given, over all runs. -/
  chipCycles : Nat
  /-- Instructions executed, over all runs. -/
  executed : Nat
  /-- The run ended at the end marker. -/
  endedByMarker : Bool
  deriving DecidableEq

/-- How long the samples play, in seconds. -/
def Rendering.duration (r : Rendering) : Binary32 :=
  secondsOf r.samples.size

/-- Why a walk stopped. -/
inductive Stop where
  /-- The declared length is reached. -/
  | complete
  | marker
  | fault (error : Error)
  deriving DecidableEq

namespace Player

variable {σ : Type}

/-- A player at the first command of an image. -/
def start (image : ByteArray) (header : Header) (device : σ) : Player σ where
  image := image
  clock := header.clock
  target := header.totalSamples
  device := device
  cursor := header.dataOffset
  samples := #[]
  executed := 0
  time := .zero

/-- Chip cycles in one sample. -/
def cyclesPerSample (p : Player σ) : Nat :=
  Chiptune.cyclesPerSample p.clock

/-- How many samples of a wait are left to render before the declared length. -/
def clamp (p : Player σ) (count : Nat) : Nat :=
  min count (p.target - p.samples.size)

/-- The player past an instruction of a given length, which counts as executed. -/
def step (p : Player σ) (length : Nat) : Player σ :=
  { p with cursor := p.cursor + length, executed := p.executed + 1 }

variable [SoundDevice σ]

/-- Pass a byte to the device. -/
def write (p : Player σ) (byte : UInt8) : Player σ :=
  { p with device := SoundDevice.write p.device byte }

/-- Render the samples of a wait, up to the declared length. -/
def wait (p : Player σ) (count : Nat) : Player σ :=
  let count := p.clamp count
  let cycles := p.cyclesPerSample
  let rendered := SoundDevice.renderSamples p.device p.samples cycles count
  { p with
    device := rendered.1
    samples := rendered.2
    time := p.time.advance (count * cycles) }

/-- Do what a command asks for; the end marker asks for nothing. -/
def execute (p : Player σ) : Command → Player σ
  | .write byte => p.write byte
  | .wait samples => p.wait samples
  | .stop => p

@[simp] theorem image_execute (p : Player σ) (c : Command) : (p.execute c).image = p.image := by
  cases c <;> rfl

@[simp] theorem cursor_execute (p : Player σ) (c : Command) : (p.execute c).cursor = p.cursor := by
  cases c <;> rfl

/-- Walk the instructions from the cursor on. -/
def walk (p : Player σ) : Stop × Player σ :=
  if p.target ≤ p.samples.size then (.complete, p)
  else if p.image.size ≤ p.cursor then
    (.fault (.unexpectedEnd p.cursor p.samples.size p.target), p)
  else
    match _h : Instruction.decode p.image p.cursor with
    | .error e => (.fault e, p)
    | .ok i =>
      if i.command = .stop then (.marker, p.step i.length)
      else ((p.step i.length).execute i.command).walk
termination_by p.image.size - p.cursor
decreasing_by
  have hend := Instruction.end_le_of_decode _h
  have hpos := i.length_pos
  simp only [image_execute, cursor_execute, step]
  omega

/-- The result of a run that stopped without a fault. -/
def rendering (p : Player σ) (endedByMarker : Bool) : Rendering where
  samples := p.samples
  cyclesPerSample := p.cyclesPerSample
  chipCycles := p.time.cycles
  executed := p.executed
  endedByMarker := endedByMarker

/-- One run.  A finished run hands its samples out, so that the next run goes on from the cursor
towards the same length; a failed run keeps them. -/
def run (p : Player σ) : Except Error Rendering × Player σ :=
  match p.walk with
  | (.complete, q) => (.ok (q.rendering false), { q with samples := #[] })
  | (.marker, q) => (.ok (q.rendering true), { q with samples := #[] })
  | (.fault e, q) => (.error e, q)

end Player

end Chiptune
