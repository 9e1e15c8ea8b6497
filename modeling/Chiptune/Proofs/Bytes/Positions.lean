import Chiptune.Bytes.LittleEndian

/-!
# Bytes — Positions

Bytes and numbers that stand at a position of some data.  Whether they do depends on the bytes there
and on nothing else.

* `hasBytesAt_congr`, `leWord_congr`: where the bytes are the same, so is what is read.
* `hasBytesAt_append_add`, `hasBytesAt_append`: bytes in front move a position along, and bytes
  behind take nothing away.
* `leWord_of_leBytes`: where a number is stored, it is read back.
-/

namespace Chiptune

/-! ### Bytes at a position -/

theorem getElem?_append_add (front data : ByteArray) (k : Nat) :
    (front ++ data)[front.size + k]? = data[k]? := by
  show (front ++ data).data[front.size + k]? = data.data[k]?
  rw [ByteArray.data_append, Array.getElem?_append, if_neg]
  · exact congrArg (data.data[·]?) (Nat.add_sub_cancel_left _ _)
  · exact Nat.not_lt.mpr (Nat.le_add_right _ _)

theorem hasBytesAt_cons_iff {data : ByteArray} {offset : Nat} {b : UInt8} {rest : List UInt8} :
    hasBytesAt data offset (b :: rest) = true ↔
      (∃ h : offset < data.size, data[offset] = b) ∧ hasBytesAt data (offset + 1) rest = true := by
  rw [hasBytesAt, Bool.and_eq_true, beq_iff_eq, getElem?_eq_some_iff]

/-- Whether some bytes stand at a position depends on the bytes that stand there. -/
theorem hasBytesAt_congr {data data' : ByteArray} {offset offset' : Nat} {bytes : List UInt8}
    (h : ∀ k < bytes.length, data'[offset' + k]? = data[offset + k]?) :
    hasBytesAt data' offset' bytes = hasBytesAt data offset bytes := by
  induction bytes generalizing offset offset' with
  | nil => rfl
  | cons b rest ih =>
      have hfirst : data'[offset']? = data[offset]? := h 0 (Nat.succ_pos _)
      have hrest : ∀ k < rest.length, data'[offset' + 1 + k]? = data[offset + 1 + k]? := by
        intro k hk
        rw [Nat.add_assoc, Nat.add_assoc, Nat.add_comm 1]
        exact h (k + 1) (Nat.succ_lt_succ hk)
      rw [hasBytesAt, hasBytesAt, hfirst, ih hrest]

/-- Bytes in front move a position along. -/
theorem hasBytesAt_append_add (front data : ByteArray) (offset : Nat) (bytes : List UInt8) :
    hasBytesAt (front ++ data) (front.size + offset) bytes = hasBytesAt data offset bytes :=
  hasBytesAt_congr fun k _ => by rw [Nat.add_assoc, getElem?_append_add]

/-- Bytes behind take nothing away. -/
theorem hasBytesAt_append {data : ByteArray} (back : ByteArray) {offset : Nat}
    {bytes : List UInt8} (h : hasBytesAt data offset bytes = true) :
    hasBytesAt (data ++ back) offset bytes = true := by
  induction bytes generalizing offset with
  | nil => rfl
  | cons b rest ih =>
      obtain ⟨⟨hlt, hb⟩, hrest⟩ := hasBytesAt_cons_iff.mp h
      have hlt' : offset < (data ++ back).size := by
        rw [ByteArray.size_append]
        omega
      refine hasBytesAt_cons_iff.mpr ⟨⟨hlt', ?_⟩, ih hrest⟩
      rw [ByteArray.getElem_append_left hlt, hb]

theorem hasBytesAt_toByteArray (bytes back : List UInt8) :
    hasBytesAt (bytes ++ back).toByteArray 0 bytes = true := by
  induction bytes with
  | nil => rfl
  | cons b rest ih =>
      have happend :
          (b :: rest ++ back).toByteArray = [b].toByteArray ++ (rest ++ back).toByteArray :=
        List.toByteArray_append (l := [b])
      rw [hasBytesAt, Bool.and_eq_true, beq_iff_eq, happend]
      refine ⟨rfl, ?_⟩
      exact (hasBytesAt_append_add [b].toByteArray _ 0 rest).trans ih

/-! ### Words at a position -/

theorem byteAt_of_getElem? {data : ByteArray} {offset : Nat} {b : UInt8}
    (h : data[offset]? = some b) : byteAt data offset = b.toNat := by
  obtain ⟨hlt, rfl⟩ := getElem?_eq_some_iff.mp h
  rw [byteAt, dif_pos hlt]

/-- Where some bytes stand, their number is read. -/
theorem leWord_of_hasBytesAt {data : ByteArray} {offset : Nat} {bytes : List UInt8}
    (h : hasBytesAt data offset bytes = true) :
    leWord data offset bytes.length = leValue bytes := by
  induction bytes generalizing offset with
  | nil => rfl
  | cons b rest ih =>
      rw [hasBytesAt, Bool.and_eq_true, beq_iff_eq] at h
      rw [List.length_cons, leWord, leValue, byteAt_of_getElem? h.1, ih h.2]

/-- Where a number stands in so many bytes, it is read back. -/
theorem leWord_of_leBytes {data : ByteArray} {offset count n : Nat} (hn : n < Nat.pow 256 count)
    (h : hasBytesAt data offset (leBytes count n) = true) : leWord data offset count = n := by
  have hword := leWord_of_hasBytesAt h
  rwa [length_leBytes, leValue_leBytes, Nat.mod_eq_of_lt hn] at hword

theorem byteAt_eq_elim (data : ByteArray) (offset : Nat) :
    byteAt data offset = data[offset]?.elim 0 UInt8.toNat := by
  unfold byteAt
  split
  case isTrue h =>
    rw [getElem?_pos data offset h]
    rfl
  case isFalse h =>
    rw [getElem?_neg data offset h]
    rfl

theorem byteAt_lt (data : ByteArray) (offset : Nat) : byteAt data offset < 256 := by
  unfold byteAt
  split
  case isTrue h => exact UInt8.toNat_lt _
  case isFalse h => decide

/-- A number fits the bytes it is read from. -/
theorem leWord_lt (data : ByteArray) (offset count : Nat) :
    leWord data offset count < Nat.pow 256 count := by
  induction count generalizing offset with
  | zero => exact Nat.one_pos
  | succ count ih =>
      have hfirst := byteAt_lt data offset
      have hrest := ih (offset + 1)
      have hpow : Nat.pow 256 (count + 1) = 256 * Nat.pow 256 count := Nat.pow_succ'
      rw [leWord, hpow]
      omega

/-- A number depends on the bytes it stands in. -/
theorem leWord_congr {data data' : ByteArray} {offset offset' count : Nat}
    (h : ∀ k < count, data'[offset' + k]? = data[offset + k]?) :
    leWord data' offset' count = leWord data offset count := by
  induction count generalizing offset offset' with
  | zero => rfl
  | succ count ih =>
      have hfirst : data'[offset']? = data[offset]? := h 0 (Nat.succ_pos _)
      have hrest : ∀ k < count, data'[offset' + 1 + k]? = data[offset + 1 + k]? := by
        intro k hk
        rw [Nat.add_assoc, Nat.add_assoc, Nat.add_comm 1]
        exact h (k + 1) (Nat.succ_lt_succ hk)
      rw [leWord, leWord, byteAt_eq_elim, byteAt_eq_elim, hfirst, ih hrest]

end Chiptune
