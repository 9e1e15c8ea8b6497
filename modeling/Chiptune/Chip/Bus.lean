import Chiptune.Chip.Voice
import Chiptune.Text.Hex

/-!
# Chip — The data bus

The chip is programmed through a data bus that can only be written to.  A byte with bit 7 set is a
latch byte: it names a voice (bits 5 and 6) and one of its two registers (bit 4 set for volume) and
carries four data bits.  A byte with bit 7 clear is a data byte: it carries six data bits for
whatever a latch byte named last.
-/

namespace Chiptune

/-- The two registers of a voice; the period register of the noise voice is its control register. -/
inductive Register where
  | period
  | volume
  deriving DecidableEq, Inhabited

/-- The number of data bits a write carries: four in a latch byte, six in a data byte. -/
inductive Width where
  | narrow
  | wide
  deriving DecidableEq, Inhabited

/-- A register of a voice, as the latch remembers it. -/
structure Target where
  voice : Voice
  register : Register
  deriving DecidableEq, Inhabited

/-- A byte put on the bus, taken apart. -/
inductive BusWrite where
  | latch (target : Target) (data : Nat)
  | data (data : Nat)
  deriving DecidableEq

/-- Whether a byte on the bus is a latch byte. -/
def isLatchByte (byte : UInt8) : Bool :=
  byte.toNat / 128 % 2 == 1

/-- The control bits of a byte on the bus: bit 7 (latch) and bit 4 (volume). -/
def latchFlags (byte : UInt8) : Nat :=
  byte.toNat / 128 % 2 * 128 + byte.toNat / 16 % 2 * 16

/-- The target a latch byte names. -/
def Target.ofLatchByte (byte : UInt8) : Target where
  voice := Voice.ofBits (byte.toNat / 32)
  register := if byte.toNat / 16 % 2 = 1 then .volume else .period

namespace BusWrite

/-- The parts of a byte on the bus. -/
def decode (byte : UInt8) : BusWrite :=
  if isLatchByte byte then .latch (Target.ofLatchByte byte) (byte.toNat % 16)
  else .data (byte.toNat % 64)

/-- A write in words. -/
def describe : BusWrite → String
  | .latch ⟨voice, .volume⟩ d => s!"latch ch{voice.index} volume = 0x{Text.hexUpper 1 d}"
  | .latch ⟨.noise, .period⟩ d => s!"latch noise control = 0x{Text.hexUpper 1 d}"
  | .latch ⟨voice, .period⟩ d => s!"latch ch{voice.index} period low = 0x{Text.hexUpper 1 d}"
  | .data d => s!"data = 0x{Text.hexUpper 2 d}"

end BusWrite

end Chiptune
