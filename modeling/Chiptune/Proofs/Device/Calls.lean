import Chiptune.Device.Recorder
import Mathlib.Algebra.BigOperators.Ring.Finset

/-!
# Device — Calls

What a device is told and what is heard from it.  A record (`DeviceEvent`) is short for a list of
calls (`DeviceEvent.calls`): a write is one call, and a stretch of cycles is an advance followed by
one reading.

* `performAll_calls`: making the calls of a record is replaying it and hearing it.
* `renderSamples_eq_replay`: rendering is the replay of as many stretches of cycles.
* `events_replayAll`: a recorder that is told a record holds that record.
-/

namespace Chiptune

variable {σ : Type} [SoundDevice σ]

/-- A call of a device. -/
inductive DeviceCall where
  | write (byte : UInt8)
  | advance (cycles : Nat)
  | sample
  deriving DecidableEq

namespace DeviceCall

/-- One call of a device, beside the values its readings gave so far.  A reading leaves the device
as it is. -/
def perform (s : σ × List Int) : DeviceCall → σ × List Int
  | .write byte => (SoundDevice.write s.1 byte, s.2)
  | .advance cycles => (SoundDevice.advance s.1 cycles, s.2)
  | .sample => (s.1, s.2 ++ [SoundDevice.sample s.1])

/-- Calls of a device, first to last. -/
def performAll (s : σ × List Int) (calls : List DeviceCall) : σ × List Int :=
  calls.foldl perform s

end DeviceCall

namespace DeviceEvent

/-- The calls an event stands for. -/
def calls : DeviceEvent → List DeviceCall
  | .write byte => [.write byte]
  | .advance cycles => [.advance cycles, .sample]

/-- The cycles an event gives a device. -/
def cycles : DeviceEvent → Nat
  | .write _ => 0
  | .advance n => n

/-- The readings of a device along a record, one after each stretch of cycles. -/
def heard : σ → List DeviceEvent → List Int
  | _, [] => []
  | device, .write byte :: rest => heard (SoundDevice.write device byte) rest
  | device, .advance n :: rest =>
    SoundDevice.sample (SoundDevice.advance device n) :: heard (SoundDevice.advance device n) rest

/-- The record of rendering `count` samples. -/
def rendering (cycles count : Nat) : List DeviceEvent :=
  List.replicate count (.advance cycles)

/-! ### Records one after the other -/

theorem replayAll_append (device : σ) (first second : List DeviceEvent) :
    replayAll device (first ++ second) = replayAll (replayAll device first) second :=
  List.foldl_append

theorem heard_append (device : σ) (first second : List DeviceEvent) :
    heard device (first ++ second) = heard device first ++ heard (replayAll device first) second := by
  induction first generalizing device with
  | nil => rfl
  | cons e rest ih =>
      cases e with
      | write byte => exact ih _
      | advance n => exact congrArg (_ :: ·) (ih _)

/-- Making the calls of a record is replaying it and hearing it. -/
theorem performAll_calls (device : σ) (readings : List Int) (events : List DeviceEvent) :
    DeviceCall.performAll (device, readings) (events.flatMap calls) =
      (replayAll device events, readings ++ heard device events) := by
  induction events generalizing device readings with
  | nil => rw [heard, List.append_nil]; rfl
  | cons e rest ih =>
      rw [List.flatMap_cons, DeviceCall.performAll, List.foldl_append]
      cases e with
      | write byte => exact ih _ _
      | advance n =>
          refine (ih _ _).trans ?_
          rw [heard, List.append_assoc]
          rfl

/-! ### Rendering -/

theorem sum_cycles_rendering (cycles count : Nat) :
    ((rendering cycles count).map DeviceEvent.cycles).sum = count * cycles := by
  rw [rendering, List.map_replicate, List.sum_replicate_nat]
  rfl

/-- Rendering is the replay of as many stretches of cycles. -/
theorem renderSamples_eq_replay (device : σ) (samples : Array Int) (cycles count : Nat) :
    SoundDevice.renderSamples device samples cycles count =
      (replayAll device (rendering cycles count),
        samples ++ (heard device (rendering cycles count)).toArray) := by
  induction count generalizing device samples with
  | zero => exact congrArg (device, ·) (Array.append_empty).symm
  | succ count ih =>
      rw [SoundDevice.renderSamples_succ, ih]
      refine Prod.ext rfl ?_
      simp only [rendering, List.replicate_succ, heard]
      rw [List.toArray_cons, ← Array.append_assoc, ← Array.push_eq_append]
      rfl

/-! ### The recorder -/

/-- A recorder that is told a record holds that record. -/
theorem events_replayAll (r : Recorder) (events : List DeviceEvent) :
    (replayAll r events).events.toList = r.events.toList ++ events := by
  induction events generalizing r with
  | nil => exact (List.append_nil _).symm
  | cons e rest ih =>
      have hstep : (replay r e).events.toList = r.events.toList ++ [e] := by
        cases e <;> exact Array.toList_push
      refine (ih (replay r e)).trans ?_
      rw [hstep, List.append_assoc]
      rfl

end DeviceEvent

end Chiptune
