import Chiptune.Proofs.Bytes.Positions
import Chiptune.Proofs.Playback.Plan

/-!
# Playback — Stream

The commands of an image as bytes.  An instruction is read at a position exactly where its bytes
stand (`decode_eq_ok_iff`); elsewhere stands an opcode nobody knows, or one whose operands are cut
off (`decode_eq_error_iff`).  So what is read depends on the bytes from the position on.  Bytes put
in front move the offset in a failure along and change nothing else (`Error.moved`).

* `Reads data start is stop`: read one after the other from `start` on, the instructions `is` come
  out, and `stop` is the position after them.
* `reads_encode`: the bytes of some instructions are read as those instructions.
* `reads_read`: a score is what is read from its start, and its ending says what stands after that.
* `read_extract`: a score depends on the bytes from its start on.
* `read_append`: behind whole instructions, a score goes on with what comes behind them.
-/

namespace Chiptune

/-- A failure at an offset that is so many bytes further on. -/
def Error.moved (n : Nat) : Error → Error
  | .unknownCommand opcode offset => .unknownCommand opcode (n + offset)
  | .truncatedCommand opcode offset => .truncatedCommand opcode (n + offset)
  | .unexpectedEnd offset rendered expected => .unexpectedEnd (n + offset) rendered expected
  | e => e

namespace Instruction

/-! ### What stands at a position -/

/-- The opcodes of the instructions. -/
def opcodes : List Nat :=
  [0x50, 0x61, 0x62, 0x63, 0x66, 0x70, 0x71, 0x72, 0x73, 0x74, 0x75, 0x76, 0x77, 0x78, 0x79]

/-- The operands of the opcode at a position run past the end of the data. -/
def OperandsCut (data : ByteArray) (offset opcode : Nat) : Prop :=
  opcode = 0x50 ∧ data.size ≤ offset + 1 ∨ opcode = 0x61 ∧ data.size ≤ offset + 2

theorem hasBytesAt_of_decode {data : ByteArray} {offset : Nat} {i : Instruction}
    (h : decode data offset = .ok i) : hasBytesAt data offset i.bytes = true := by
  unfold decode at h
  split at h
  case isFalse => cases h
  case isTrue hlt =>
    have hop : ∀ n, data[offset].toNat = n → data[offset] = UInt8.ofNat n := by
      rintro n rfl
      exact UInt8.ofNat_toNat.symm
    split at h
    case h_1 hn =>
      split at h <;> cases h
      rename_i h1
      exact hasBytesAt_cons_iff.mpr ⟨⟨hlt, hop _ hn⟩, hasBytesAt_cons_iff.mpr ⟨⟨h1, rfl⟩, rfl⟩⟩
    case h_2 hn =>
      split at h <;> cases h
      rename_i h2
      have h1 : offset + 1 < data.size := by omega
      exact hasBytesAt_cons_iff.mpr ⟨⟨hlt, hop _ hn⟩,
        hasBytesAt_cons_iff.mpr ⟨⟨h1, rfl⟩, hasBytesAt_cons_iff.mpr ⟨⟨h2, rfl⟩, rfl⟩⟩⟩
    case h_3 hn | h_4 hn | h_5 hn =>
      cases h
      exact hasBytesAt_cons_iff.mpr ⟨⟨hlt, hop _ hn⟩, rfl⟩
    case h_6 =>
      split at h <;> cases h
      rename_i hs
      refine hasBytesAt_cons_iff.mpr ⟨⟨hlt, ?_⟩, rfl⟩
      rw [Nat.add_sub_cancel' hs.1]
      exact hop _ rfl

theorem decode_of_hasBytesAt {data : ByteArray} {offset : Nat} {i : Instruction}
    (h : hasBytesAt data offset i.bytes = true) : decode data offset = .ok i := by
  cases i with
  | busWrite byte =>
      obtain ⟨⟨hlt, hop⟩, hrest⟩ := hasBytesAt_cons_iff.mp h
      obtain ⟨⟨h1, rfl⟩, -⟩ := hasBytesAt_cons_iff.mp hrest
      simp [decode, hlt, hop, h1]
  | wait low high =>
      obtain ⟨⟨hlt, hop⟩, hrest⟩ := hasBytesAt_cons_iff.mp h
      obtain ⟨⟨h1, hlow⟩, hrest'⟩ := hasBytesAt_cons_iff.mp hrest
      obtain ⟨⟨h2, hhigh⟩, -⟩ := hasBytesAt_cons_iff.mp hrest'
      have h2' : offset + 2 < data.size := h2
      simp [decode, hlt, hop, h2', ← hlow, ← hhigh]
  | waitNtscFrame | waitPalFrame | stop =>
      obtain ⟨⟨hlt, hop⟩, -⟩ := hasBytesAt_cons_iff.mp h
      simp [decode, hlt, hop]
  | shortWait extra =>
      obtain ⟨⟨hlt, hop⟩, -⟩ := hasBytesAt_cons_iff.mp h
      have hn : data[offset].toNat = 0x70 + extra.val := by
        rw [hop, UInt8.toNat_ofNat']
        omega
      unfold decode
      rw [dif_pos hlt]
      split
      case h_1 heq | h_2 heq | h_3 heq | h_4 heq | h_5 heq => omega
      case h_6 =>
        rw [dif_pos (by omega)]
        simp only [hn, Nat.add_sub_cancel_left]

/-- An instruction is read exactly where its bytes stand. -/
theorem decode_eq_ok_iff {data : ByteArray} {offset : Nat} {i : Instruction} :
    decode data offset = .ok i ↔ hasBytesAt data offset i.bytes = true :=
  ⟨hasBytesAt_of_decode, decode_of_hasBytesAt⟩

/-- Inside the data, reading fails exactly at unknown opcodes and at operands that are cut off. -/
theorem decode_eq_error_iff {data : ByteArray} {offset : Nat} (hlt : offset < data.size)
    {e : Error} :
    decode data offset = .error e ↔
      (data[offset].toNat ∉ opcodes ∧ e = .unknownCommand data[offset].toNat offset) ∨
      (OperandsCut data offset data[offset].toNat ∧
        e = .truncatedCommand data[offset].toNat offset) := by
  unfold decode
  rw [dif_pos hlt]
  generalize data[offset].toNat = opcode
  split
  case h_1 | h_2 =>
    split
    case isTrue hin => simp [opcodes, OperandsCut, hin]
    case isFalse hcut => simp [opcodes, OperandsCut, eq_comm, Nat.not_lt.mp hcut]
  case h_3 | h_4 | h_5 => simp [opcodes, OperandsCut]
  case h_6 h50 h61 h62 h63 h66 =>
    have hcut : ¬ OperandsCut data offset opcode := by
      rintro (⟨h, -⟩ | ⟨h, -⟩)
      · exact h50 h
      · exact h61 h
    simp only [imp_false] at h50 h61 h62 h63 h66
    have hmem : opcode ∈ opcodes ↔ 0x70 ≤ opcode ∧ opcode ≤ 0x79 := by
      simp only [opcodes, List.mem_cons, List.not_mem_nil, or_false]
      omega
    split
    case isTrue hs => simp [hmem.mpr hs, hcut]
    case isFalse hs => simp [mt hmem.mp hs, hcut, eq_comm]

/-- Bytes in front move a failure along and change nothing else. -/
theorem decode_append_add (front : ByteArray) {data : ByteArray} {offset : Nat}
    (hlt : offset < data.size) :
    decode (front ++ data) (front.size + offset) =
      (decode data offset).mapError (Error.moved front.size) := by
  cases hdec : decode data offset with
  | ok i =>
      refine decode_eq_ok_iff.mpr ?_
      rw [hasBytesAt_append_add]
      exact decode_eq_ok_iff.mp hdec
  | error e =>
      have hsize : (front ++ data).size = front.size + data.size := ByteArray.size_append
      have hlt' : front.size + offset < (front ++ data).size := by omega
      have hbyte : (front ++ data)[front.size + offset] = data[offset] := by
        rw [ByteArray.getElem_append_right (Nat.le_add_right _ _)]
        simp only [Nat.add_sub_cancel_left]
      refine (decode_eq_error_iff hlt').mpr ?_
      rw [hbyte]
      rcases (decode_eq_error_iff hlt).mp hdec with ⟨hop, rfl⟩ | ⟨hcut, rfl⟩
      · exact .inl ⟨hop, rfl⟩
      · refine .inr ⟨?_, rfl⟩
        unfold OperandsCut at hcut ⊢
        omega

theorem decode_append {data : ByteArray} (back : ByteArray) {offset : Nat} {i : Instruction}
    (h : decode data offset = .ok i) : decode (data ++ back) offset = .ok i :=
  decode_eq_ok_iff.mpr (hasBytesAt_append back (decode_eq_ok_iff.mp h))

/-! ### Instructions one after the other -/

/-- Read one after the other from a position on, these instructions come out, and the last position
is the one after them. -/
inductive Reads (data : ByteArray) : Nat → List Instruction → Nat → Prop where
  | nil (start : Nat) : Reads data start [] start
  | cons {start stop : Nat} {i : Instruction} {rest : List Instruction}
      (h : decode data start = .ok i) (t : Reads data (start + i.length) rest stop) :
      Reads data start (i :: rest) stop

namespace Reads

variable {data : ByteArray} {start mid stop : Nat} {is js : List Instruction}

theorem trans (h₁ : Reads data start is mid) (h₂ : Reads data mid js stop) :
    Reads data start (is ++ js) stop := by
  induction h₁ with
  | nil => exact h₂
  | cons h _ ih => exact .cons h (ih h₂)

theorem split (h : Reads data start (is ++ js) stop) :
    ∃ mid, Reads data start is mid ∧ Reads data mid js stop := by
  induction is generalizing start with
  | nil => exact ⟨start, .nil start, h⟩
  | cons i rest ih =>
      cases h with
      | cons hdec t =>
          obtain ⟨mid, h₁, h₂⟩ := ih t
          exact ⟨mid, .cons hdec h₁, h₂⟩

/-- The instructions fill the bytes between the two positions. -/
theorem stop_eq (h : Reads data start is stop) :
    stop = start + (is.map Instruction.length).sum := by
  induction h with
  | nil => rfl
  | cons _ _ ih => rw [ih, List.map_cons, List.sum_cons, Nat.add_assoc]

theorem append_add (front : ByteArray) (h : Reads data start is stop) :
    Reads (front ++ data) (front.size + start) is (front.size + stop) := by
  induction h with
  | nil => exact .nil _
  | cons hdec _ ih =>
      refine .cons (decode_eq_ok_iff.mpr ?_) ?_
      · rw [hasBytesAt_append_add]
        exact decode_eq_ok_iff.mp hdec
      · rwa [Nat.add_assoc]

theorem append (back : ByteArray) (h : Reads data start is stop) :
    Reads (data ++ back) start is stop := by
  induction h with
  | nil => exact .nil _
  | cons hdec _ ih => exact .cons (decode_append back hdec) ih

end Reads

/-- The bytes of some instructions, first to last. -/
def encode (is : List Instruction) : ByteArray :=
  (is.flatMap bytes).toByteArray

/-- The bytes of some instructions are read as those instructions. -/
theorem reads_encode (is : List Instruction) : Reads (encode is) 0 is (encode is).size := by
  induction is with
  | nil => exact .nil 0
  | cons i rest ih =>
      have happend : encode (i :: rest) = i.bytes.toByteArray ++ encode rest := by
        rw [encode, List.flatMap_cons, List.toByteArray_append]
        rfl
      have hsize : i.bytes.toByteArray.size = i.length := by
        rw [List.size_toByteArray, length_bytes]
      have hrest := ih.append_add i.bytes.toByteArray
      rw [← happend, ← ByteArray.size_append, ← happend, hsize] at hrest
      refine .cons (decode_eq_ok_iff.mpr ?_) ?_
      · exact hasBytesAt_toByteArray i.bytes (rest.flatMap bytes)
      · rwa [Nat.zero_add]

theorem size_encode_pos {is : List Instruction} (h : is ≠ []) : 0 < (encode is).size := by
  obtain ⟨i, rest, rfl⟩ := List.exists_cons_of_ne_nil h
  cases reads_encode (i :: rest) with
  | cons hdec _ =>
      have hend := end_le_of_decode hdec
      have hpos := i.length_pos
      omega

end Instruction

open Instruction (Reads)

/-! ### Scores -/

/-- An ending that is so many bytes further on. -/
def ScoreEnd.moved (n : Nat) : ScoreEnd → ScoreEnd
  | .outOfData offset => .outOfData (n + offset)
  | .unreadable e => .unreadable (e.moved n)

namespace Score

/-- A score that ends so many bytes further on. -/
def moved (score : Score) (n : Nat) : Score :=
  ⟨score.instructions, score.ending.moved n⟩

theorem read_append_add (front data : ByteArray) (start : Nat) :
    read (front ++ data) (front.size + start) = (read data start).moved front.size := by
  have hsize : (front ++ data).size = front.size + data.size := ByteArray.size_append
  induction start using read.induct data with
  | case1 start hend =>
      rw [read_of_end hend, read_of_end (by omega)]
      rfl
  | case2 start hend e hdec =>
      have hdec' : Instruction.decode (front ++ data) (front.size + start) =
          .error (e.moved front.size) := by
        rw [Instruction.decode_append_add front (Nat.lt_of_not_le hend), hdec]
        rfl
      rw [read_of_error hend hdec, read_of_error (by omega) hdec']
      rfl
  | case3 start hend i hdec ih =>
      have hdec' : Instruction.decode (front ++ data) (front.size + start) = .ok i := by
        rw [Instruction.decode_append_add front (Nat.lt_of_not_le hend), hdec]
        rfl
      rw [read_of_ok hdec, read_of_ok hdec', Nat.add_assoc, ih]
      rfl

/-- A score depends on the bytes from its start on. -/
theorem read_extract (image : ByteArray) (start : Nat) :
    read image start = (read (image.extract start image.size) 0).moved start := by
  by_cases h : start ≤ image.size
  · have hcut : image.extract 0 start ++ image.extract start image.size = image := by
      rw [ByteArray.extract_append_extract, Nat.min_eq_left (Nat.zero_le _),
        Nat.max_eq_right h, ByteArray.extract_zero_size]
    have hsize : (image.extract 0 start).size = start := by
      rw [ByteArray.size_extract]
      omega
    have hread := read_append_add (image.extract 0 start) (image.extract start image.size) 0
    rwa [hcut, hsize] at hread
  · have hempty : (image.extract start image.size).size ≤ 0 := by
      rw [ByteArray.size_extract]
      omega
    rw [read_of_end (Nat.le_of_not_le h), read_of_end hempty]
    rfl

/-- What is read first begins the score. -/
theorem read_of_reads {image : ByteArray} {start stop : Nat} {is : List Instruction}
    (h : Reads image start is stop) :
    read image start = ⟨is ++ (read image stop).instructions, (read image stop).ending⟩ := by
  induction h with
  | nil => rfl
  | cons hdec _ ih =>
      rw [read_of_ok hdec, ih]
      rfl

/-- Behind bytes that are whole instructions, a score goes on with what comes behind them. -/
theorem read_append {front : ByteArray} {is : List Instruction} (h : Reads front 0 is front.size)
    (back : ByteArray) :
    read (front ++ back) 0 =
      ⟨is ++ (read back 0).instructions, (read back 0).ending.moved front.size⟩ := by
  rw [read_of_reads (h.append back)]
  have hback := read_append_add front back 0
  rw [Nat.add_zero] at hback
  rw [hback]
  rfl

/-- A score is what is read from its start, and its ending says what stands after that. -/
theorem reads_read (image : ByteArray) (start : Nat) :
    ∃ stop, Reads image start (read image start).instructions stop ∧
      ((image.size ≤ stop ∧ (read image start).ending = .outOfData stop) ∨
        ∃ e, stop < image.size ∧ Instruction.decode image stop = .error e ∧
          (read image start).ending = .unreadable e) := by
  induction start using read.induct image with
  | case1 start hend =>
      rw [read_of_end hend]
      exact ⟨start, .nil start, .inl ⟨hend, rfl⟩⟩
  | case2 start hend e hdec =>
      rw [read_of_error hend hdec]
      exact ⟨start, .nil start, .inr ⟨e, Nat.lt_of_not_le hend, hdec, rfl⟩⟩
  | case3 start hend i hdec ih =>
      obtain ⟨stop, hreads, hending⟩ := ih
      rw [read_of_ok hdec]
      exact ⟨stop, .cons hdec hreads, hending⟩

/-- The instructions a plan walks stand from its start on, one after the other. -/
theorem reads_walked (image : ByteArray) (start cycles target rendered : Nat) :
    let plan := (read image start).plan cycles target rendered
    Reads image start plan.walked (start + plan.length) := by
  intro plan
  obtain ⟨stop, hreads, -⟩ := reads_read image start
  obtain ⟨rest, hrest⟩ := Score.walked_prefix (read image start) cycles target rendered
  rw [← hrest] at hreads
  obtain ⟨mid, hwalked, -⟩ := hreads.split
  obtain rfl : mid = start + plan.length := hwalked.stop_eq
  exact hwalked

end Score

end Chiptune
