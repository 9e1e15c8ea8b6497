/-!
# Bytes — Sources

A byte source hands over its bytes a chunk at a time and then either ends or fails
(`ByteSource`).  `collect` gathers what a source hands over, and stops as soon as it has more than
it was allowed: what the source would have done after that is never looked at
(`collect_eq_excess_iff`).
-/

namespace Chiptune

/-- A source of bytes; what follows a chunk is worked out only when it is asked for. -/
inductive ByteSource (ε : Type) where
  | finished
  | failed (fault : ε)
  | chunk (bytes : ByteArray) (rest : Unit → ByteSource ε)

/-- What became of gathering a source. -/
inductive Collected (ε : Type) where
  | whole (bytes : ByteArray)
  | failed (fault : ε)
  /-- There are more bytes than allowed. -/
  | excess

namespace ByteSource

variable {ε : Type}

/-- How many bytes a source hands over in all. -/
def size : ByteSource ε → Nat
  | finished => 0
  | failed _ => 0
  | chunk bytes rest => bytes.size + (rest ()).size

/-- All bytes a source hands over. -/
def bytes : ByteSource ε → ByteArray
  | finished => .empty
  | failed _ => .empty
  | chunk bytes rest => bytes ++ (rest ()).bytes

/-- The fault a source ends with. -/
def fault? : ByteSource ε → Option ε
  | finished => none
  | failed fault => some fault
  | chunk _ rest => (rest ()).fault?

/-- Gather a source behind the bytes gathered so far, up to `limit` bytes in all. -/
def collect (limit : Nat) (acc : ByteArray) : ByteSource ε → Collected ε
  | finished => .whole acc
  | failed fault => .failed fault
  | chunk bytes rest =>
    let acc := acc ++ bytes
    if limit < acc.size then .excess else collect limit acc (rest ())

theorem size_bytes (s : ByteSource ε) : s.bytes.size = s.size := by
  induction s with
  | finished => rfl
  | failed _ => rfl
  | chunk b rest ih => simp only [bytes, size, ByteArray.size_append, ih]

/-- More than allowed is found exactly when there is more than allowed, however the source ends. -/
theorem collect_eq_excess_iff {limit : Nat} {acc : ByteArray} (h : acc.size ≤ limit)
    (s : ByteSource ε) : collect limit acc s = .excess ↔ limit < acc.size + s.size := by
  induction s generalizing acc with
  | finished => simpa [collect, size] using h
  | failed _ => simpa [collect, size] using h
  | chunk b rest ih =>
    simp only [collect, size]
    split
    · rename_i hlt
      rw [ByteArray.size_append] at hlt
      simp only [true_iff]
      omega
    · rename_i hle
      rw [ih () (Nat.le_of_not_lt hle), ByteArray.size_append, Nat.add_assoc]

end ByteSource

end Chiptune
