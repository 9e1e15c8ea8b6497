import Chiptune.Device

/-!
# Chip — Histories

What a host did to a chip, first to last.  A host writes bytes, lets time pass, renders samples,
resets, and mutes voices (`Operation`); a chip has been through a history of such operations
(`Chip.run`).
-/

namespace Chiptune

namespace Chip

/-- What a host can do to the chip. -/
inductive Operation where
  | write (byte : UInt8)
  | advance (cycles : Nat)
  /-- Fill a buffer of `count` samples of `cycles` cycles each. -/
  | render (cycles count : Nat)
  | reset
  | mute (index : Nat) (muted : Bool)
  deriving DecidableEq

/-- Rendering leaves the chip where its cycles alone would. -/
theorem fst_renderSamples (c : Chip) (samples : Array Int) (cycles count : Nat) :
    (SoundDevice.renderSamples c samples cycles count).1 = c.advance (count * cycles) := by
  induction count generalizing c samples with
  | zero => rw [Nat.zero_mul]; rfl
  | succ count ih =>
      rw [SoundDevice.renderSamples_succ, ih, Nat.succ_mul, Nat.add_comm, advance_add]
      rfl

/-- One operation of the host. -/
def apply (c : Chip) : Operation → Chip
  | .write byte => c.write byte
  | .advance cycles => c.advance cycles
  | .render cycles count => (SoundDevice.renderSamples c #[] cycles count).1
  | .reset => c.reset
  | .mute index muted => c.setMute index muted

/-- The chip after a history of operations, first to last. -/
def run (c : Chip) (history : List Operation) : Chip :=
  history.foldl apply c

@[simp] theorem run_cons (c : Chip) (op : Operation) (rest : List Operation) :
    c.run (op :: rest) = (c.apply op).run rest := rfl

end Chip

end Chiptune
