import Chiptune.Proofs.Device.Calls

/-!
# Device — Tape

A device on tape: beside the device runs a list of what it is told.  The device does not notice; it
goes through the same states and gives the same readings as without the tape (`device_replayAll`,
`heard_taped`), and the tape holds every event once, in order (`tape_replayAll`).
-/

namespace Chiptune

/-- A device and what it was told since the last reset, first to last. -/
structure Taped (σ : Type) where
  device : σ
  tape : List DeviceEvent

namespace Taped

variable {σ : Type}

/-- A device with an empty tape. -/
def new (device : σ) : Taped σ := ⟨device, []⟩

variable [SoundDevice σ]

instance : SoundDevice (Taped σ) where
  reset t := new (SoundDevice.reset t.device)
  write t byte := ⟨SoundDevice.write t.device byte, t.tape ++ [.write byte]⟩
  advance t n := ⟨SoundDevice.advance t.device n, t.tape ++ [.advance n]⟩
  sample t := SoundDevice.sample t.device

theorem device_replay (t : Taped σ) (e : DeviceEvent) :
    (e.replay t).device = e.replay t.device := by
  cases e <;> rfl

theorem tape_replay (t : Taped σ) (e : DeviceEvent) : (e.replay t).tape = t.tape ++ [e] := by
  cases e <;> rfl

/-- The device does not notice the tape. -/
theorem device_replayAll (t : Taped σ) (events : List DeviceEvent) :
    (DeviceEvent.replayAll t events).device = DeviceEvent.replayAll t.device events := by
  induction events generalizing t with
  | nil => rfl
  | cons e rest ih => exact (ih _).trans (congrArg (DeviceEvent.replayAll · rest) (t.device_replay e))

/-- The tape takes down every event, in order. -/
theorem tape_replayAll (t : Taped σ) (events : List DeviceEvent) :
    (DeviceEvent.replayAll t events).tape = t.tape ++ events := by
  induction events generalizing t with
  | nil => exact (List.append_nil _).symm
  | cons e rest ih =>
      refine (ih (e.replay t)).trans ?_
      rw [tape_replay, List.append_assoc, List.singleton_append]

/-- A device on tape gives the same readings. -/
theorem heard_taped (t : Taped σ) (events : List DeviceEvent) :
    DeviceEvent.heard t events = DeviceEvent.heard t.device events := by
  induction events generalizing t with
  | nil => rfl
  | cons e rest ih =>
      cases e with
      | write byte => exact ih _
      | advance n => exact congrArg (_ :: ·) (ih _)

end Taped

end Chiptune
