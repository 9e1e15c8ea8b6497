/-!
# Bytes — Little-endian words

Numbers stored with the lowest byte first: written as lists of bytes (`leBytes`) and read from a
position in a byte array (`leWord`), where bytes past the end count as zero.
-/

namespace Chiptune

/-- The lowest `count` bytes of `n`, lowest first. -/
def leBytes : Nat → Nat → List UInt8
  | 0, _ => []
  | count + 1, n => UInt8.ofNat n :: leBytes count (n / 256)

/-- The number stored in a list of bytes, lowest first. -/
def leValue : List UInt8 → Nat
  | [] => 0
  | b :: rest => b.toNat + 256 * leValue rest

/-- The byte at a position, as a number; zero past the end. -/
def byteAt (data : ByteArray) (offset : Nat) : Nat :=
  if h : offset < data.size then data[offset].toNat else 0

/-- Whether the bytes from a position on begin with the given ones. -/
def hasBytesAt (data : ByteArray) (offset : Nat) : List UInt8 → Bool
  | [] => true
  | b :: rest => data[offset]? == some b && hasBytesAt data (offset + 1) rest

/-- The number stored in `count` bytes from a position on. -/
def leWord (data : ByteArray) : Nat → Nat → Nat
  | _, 0 => 0
  | offset, count + 1 => byteAt data offset + 256 * leWord data (offset + 1) count

@[simp] theorem length_leBytes (count n : Nat) : (leBytes count n).length = count := by
  induction count generalizing n with
  | zero => rfl
  | succ count ih => simp [leBytes, ih]

/-- Reading gives back what was written, up to the width. -/
theorem leValue_leBytes (count n : Nat) : leValue (leBytes count n) = n % Nat.pow 256 count := by
  induction count generalizing n with
  | zero => simp [leBytes, leValue, Nat.mod_one]
  | succ count ih =>
    have hb : (UInt8.ofNat n).toNat = n % 256 := by simp
    have hpow : Nat.pow 256 (count + 1) = 256 * Nat.pow 256 count := Nat.pow_succ'
    rw [leBytes, leValue, ih, hb, hpow, Nat.mod_mul]

end Chiptune
