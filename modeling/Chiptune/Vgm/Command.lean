import Chiptune.Bytes.LittleEndian
import Chiptune.Error

/-!
# VGM — Commands

A song is a stream of instructions, each an opcode byte with at most two operand bytes
(`Instruction`).  What an instruction asks for is a command (`Command`): a write to the chip, a wait
of some samples, or the end.  Several instructions can ask for the same wait.  `Instruction.decode`
reads the instruction at a position and `Instruction.bytes` writes one; the opcodes are

* `50 dd`: write `dd` to the chip,
* `61 nn nn`: wait that many samples, lowest byte first,
* `62`, `63`: wait a frame of 1/60 or 1/50 second,
* `66`: end of the song,
* `70` to `79`: wait one to ten samples.
-/

namespace Chiptune

/-- What an instruction asks for. -/
inductive Command where
  | write (byte : UInt8)
  | wait (samples : Nat)
  | stop
  deriving DecidableEq

/-- A command in words. -/
def Command.describe : Command → String
  | write byte => s!"PSG write {opcodeText byte.toNat}"
  | wait samples => s!"wait {samples} samples"
  | stop => "end of sound data"

/-- Samples in a frame of a sixtieth of a second. -/
def ntscFrame : Nat := 735

/-- Samples in a frame of a fiftieth of a second. -/
def palFrame : Nat := 882

/-- A command as the stream stores it. -/
inductive Instruction where
  | busWrite (byte : UInt8)
  | wait (low high : UInt8)
  | waitNtscFrame
  | waitPalFrame
  | stop
  | shortWait (extra : Fin 10)
  deriving DecidableEq

namespace Instruction

/-- The bytes of an instruction. -/
def bytes : Instruction → List UInt8
  | busWrite byte => [0x50, byte]
  | wait low high => [0x61, low, high]
  | waitNtscFrame => [0x62]
  | waitPalFrame => [0x63]
  | stop => [0x66]
  | shortWait extra => [UInt8.ofNat (0x70 + extra.val)]

/-- How many bytes an instruction has. -/
def length : Instruction → Nat
  | busWrite _ => 2
  | wait _ _ => 3
  | _ => 1

/-- What an instruction asks for. -/
def command : Instruction → Command
  | busWrite byte => .write byte
  | wait low high => .wait (low.toNat + 256 * high.toNat)
  | waitNtscFrame => .wait ntscFrame
  | waitPalFrame => .wait palFrame
  | stop => .stop
  | shortWait extra => .wait (extra.val + 1)

/-- The instruction at a position.  The opcode decides how many operands must follow. -/
def decode (data : ByteArray) (offset : Nat) : Except Error Instruction :=
  if h : offset < data.size then
    match data[offset].toNat with
    | 0x50 =>
      if h1 : offset + 1 < data.size then .ok (.busWrite data[offset + 1])
      else .error (.truncatedCommand 0x50 offset)
    | 0x61 =>
      if h2 : offset + 2 < data.size then .ok (.wait data[offset + 1] data[offset + 2])
      else .error (.truncatedCommand 0x61 offset)
    | 0x62 => .ok .waitNtscFrame
    | 0x63 => .ok .waitPalFrame
    | 0x66 => .ok .stop
    | opcode =>
      if hs : 0x70 ≤ opcode ∧ opcode ≤ 0x79 then .ok (.shortWait ⟨opcode - 0x70, by omega⟩)
      else .error (.unknownCommand opcode offset)
  else .error (.invalidImage (.commandOffsetPastEnd offset))

theorem length_bytes (i : Instruction) : i.bytes.length = i.length := by
  cases i <;> rfl

theorem length_pos (i : Instruction) : 0 < i.length := by
  cases i <;> simp [length]

/-- An instruction that was read lies inside the data. -/
theorem end_le_of_decode {data : ByteArray} {offset : Nat} {i : Instruction}
    (h : decode data offset = .ok i) : offset + i.length ≤ data.size := by
  unfold decode at h
  split at h
  · split at h
    · split at h <;> cases h
      assumption
    · split at h <;> cases h
      assumption
    · cases h; assumption
    · cases h; assumption
    · cases h; assumption
    · split at h <;> cases h
      assumption
  · cases h

/-- The instructions from one position up to another, as far as they can be read. -/
def listBetween (data : ByteArray) (start stop : Nat) : List Instruction :=
  if start < stop then
    match decode data start with
    | .ok i => i :: listBetween data (start + i.length) stop
    | .error _ => []
  else []
termination_by stop - start
decreasing_by
  have := i.length_pos
  omega

end Instruction

end Chiptune
