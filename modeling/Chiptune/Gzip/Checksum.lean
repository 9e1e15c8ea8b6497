/-!
# Gzip — Checksum

The thirty-two-bit cyclic redundancy check of a byte string, lowest bit first, worked out a byte at
a time with a table of the remainders of all single bytes.
-/

namespace Chiptune
namespace Checksum

/-- One bit of division by the generator polynomial. -/
def bitStep (r : UInt32) : UInt32 :=
  if r &&& 1 = 1 then (r >>> 1) ^^^ 0xEDB88320 else r >>> 1

/-- A number of bits of division. -/
def bitSteps (r : UInt32) : Nat → UInt32
  | 0 => r
  | n + 1 => bitSteps (bitStep r) n

/-- The remainders of the single bytes. -/
def table : Vector UInt32 256 :=
  Vector.ofFn fun i => bitSteps (UInt32.ofNat i.val) 8

/-- One more byte. -/
def update (r : UInt32) (b : UInt8) : UInt32 :=
  table.get ⟨((r ^^^ b.toUInt32) &&& 0xFF).toNat % 256, Nat.mod_lt _ (by decide)⟩ ^^^ (r >>> 8)

/-- The state before the first byte. -/
def start : UInt32 := 0xFFFFFFFF

/-- The bytes of an array, after those already taken in. -/
def updateAll (r : UInt32) (data : ByteArray) : UInt32 :=
  data.foldl update r

/-- The check value in a state. -/
def value (r : UInt32) : Nat :=
  (r ^^^ 0xFFFFFFFF).toNat

/-- The check value of a byte string. -/
def ofBytes (data : ByteArray) : Nat :=
  value (updateAll start data)

end Checksum
end Chiptune
