import Chiptune.Bytes.Source

/-!
# Bytes — Sources to their end

A source is read to its end (`readToEnd`), or only so many bytes of it are let through (`take`): then
it is not asked for more, so what it would have done afterwards does not show.

* `readToEnd_eq`: a source is read to its end unless it fails, and then nothing of it is left.
* `bytes_take`, `fault?_take`: of a source with too many bytes, so many are let through, and it ends
  without fault.
* `collect_eq`: gathering a source tells the same apart: too many bytes, a failure, or all bytes.
-/

namespace Chiptune
namespace ByteSource

variable {ε : Type}

/-- Read a source to its end, behind the bytes read so far. -/
def readToEnd (acc : ByteArray) : ByteSource ε → Except ε ByteArray
  | finished => .ok acc
  | failed fault => .error fault
  | chunk bytes rest => readToEnd (acc ++ bytes) (rest ())

/-- So many bytes of a source; when they have been handed over, the source is not asked again. -/
def take (limit : Nat) : ByteSource ε → ByteSource ε
  | finished => .finished
  | failed fault => if limit = 0 then .finished else .failed fault
  | chunk bytes rest =>
    if limit = 0 then .finished
    else .chunk (bytes.extract 0 limit) fun _ => take (limit - bytes.size) (rest ())

/-- What a source makes of the bytes read so far: its own behind them, or its fault. -/
def result (acc : ByteArray) (s : ByteSource ε) : Except ε ByteArray :=
  match s.fault? with
  | none => .ok (acc ++ s.bytes)
  | some fault => .error fault

theorem result_chunk (acc b : ByteArray) (rest : Unit → ByteSource ε) :
    result acc (chunk b rest) = result (acc ++ b) (rest ()) := by
  rw [result, result, fault?, bytes, ByteArray.append_assoc]

/-- A source is read to its end unless it fails. -/
theorem readToEnd_eq (acc : ByteArray) (s : ByteSource ε) : s.readToEnd acc = s.result acc := by
  induction s generalizing acc with
  | finished => exact congrArg Except.ok ByteArray.append_empty.symm
  | failed fault => rfl
  | chunk bytes rest ih => rw [readToEnd, ih, result_chunk]

theorem take_zero (s : ByteSource ε) : s.take 0 = .finished := by
  cases s <;> rfl

/-- Of a source with too many bytes, as many are let through as allowed. -/
theorem bytes_take (limit : Nat) (s : ByteSource ε) :
    (s.take limit).bytes = s.bytes.extract 0 limit := by
  induction s generalizing limit with
  | finished => exact (ByteArray.extract_eq_empty_iff.mpr (Nat.min_le_right _ _)).symm
  | failed fault =>
      unfold take
      split <;> exact (ByteArray.extract_eq_empty_iff.mpr (Nat.min_le_right _ _)).symm
  | chunk b rest ih =>
      by_cases hlimit : limit = 0
      · rw [hlimit, take_zero]
        exact ByteArray.extract_same.symm
      · rw [take, if_neg hlimit, bytes, ih, bytes, ByteArray.extract_append, Nat.zero_sub]

theorem bytes_take_of_le {limit : Nat} {s : ByteSource ε} (h : s.size ≤ limit) :
    (s.take limit).bytes = s.bytes := by
  rw [← size_bytes] at h
  rw [bytes_take]
  exact ByteArray.ext (ByteArray.data_extract.trans (Array.extract_eq_self_of_le h))

/-- A source fails only when it is asked for what comes behind its bytes. -/
theorem fault?_take (limit : Nat) (s : ByteSource ε) :
    (s.take limit).fault? = if limit ≤ s.size then none else s.fault? := by
  induction s generalizing limit with
  | finished => simp [take, fault?]
  | failed fault =>
      unfold take size
      simp only [Nat.le_zero]
      split <;> rfl
  | chunk b rest ih =>
      by_cases hlimit : limit = 0
      · rw [hlimit, take_zero, if_pos (Nat.zero_le _)]
        rfl
      · rw [take, if_neg hlimit, fault?, ih, size, fault?]
        simp only [Nat.sub_le_iff_le_add, Nat.add_comm b.size]

/-- Gathering a source tells apart whether there are too many bytes, and if not, how it ends. -/
theorem collect_eq {limit : Nat} {acc : ByteArray} (h : acc.size ≤ limit) (s : ByteSource ε) :
    collect limit acc s =
      if limit < acc.size + s.size then .excess
      else
        match s.result acc with
        | .ok bytes => .whole bytes
        | .error fault => .failed fault := by
  induction s generalizing acc with
  | finished =>
      rw [collect, size, if_neg (show ¬ limit < acc.size + 0 from Nat.not_lt.mpr h)]
      exact congrArg Collected.whole ByteArray.append_empty.symm
  | failed fault =>
      rw [collect, size, if_neg (show ¬ limit < acc.size + 0 from Nat.not_lt.mpr h)]
      rfl
  | chunk b rest ih =>
      rw [collect, result_chunk, size, ← Nat.add_assoc, ← ByteArray.size_append]
      split
      case isTrue hlt => rw [if_pos (Nat.lt_of_lt_of_le hlt (Nat.le_add_right _ _))]
      case isFalse hle => exact ih () (Nat.not_lt.mp hle)

end ByteSource
end Chiptune
