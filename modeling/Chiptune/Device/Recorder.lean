import Chiptune.Device

/-!
# Device — Recorder

A device that makes no sound and keeps a record of what it is told.  Its output is the number of
writes it has received, so a reading shows which writes came before it.
-/

namespace Chiptune

/-- Something a device was told to do. -/
inductive DeviceEvent where
  | write (byte : UInt8)
  | advance (cycles : Nat)
  deriving DecidableEq

/-- The record of a device that only listens. -/
structure Recorder where
  /-- What came in since the last reset, first to last. -/
  events : Array DeviceEvent := #[]
  /-- How many of the events are writes. -/
  writes : Nat := 0
  deriving DecidableEq

namespace Recorder

/-- An empty record. -/
def empty : Recorder := {}

instance : Inhabited Recorder := ⟨empty⟩

/-- The output is a signed sixteen-bit count of the writes. -/
instance : SoundDevice Recorder where
  reset _ := empty
  write r byte := { r with events := r.events.push (.write byte), writes := r.writes + 1 }
  advance r cycles := { r with events := r.events.push (.advance cycles) }
  sample r := (r.writes : Int).bmod 65536

end Recorder

namespace DeviceEvent

variable {σ : Type} [SoundDevice σ]

/-- Do to a device what the event says. -/
def replay (device : σ) : DeviceEvent → σ
  | .write byte => SoundDevice.write device byte
  | .advance cycles => SoundDevice.advance device cycles

/-- Do to a device what a record says, first to last. -/
def replayAll (device : σ) (events : List DeviceEvent) : σ :=
  events.foldl replay device

end DeviceEvent

end Chiptune
