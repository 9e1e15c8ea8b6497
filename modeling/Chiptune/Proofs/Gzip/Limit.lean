import Chiptune.Gzip.Member
import Chiptune.Proofs.Bytes.Sources

/-!
# Gzip — The limit

Seeing through a container with any decoder for what is in it (`unwrapWith`).  One byte more than
allowed is let through, so that too many bytes can be told from just enough; what the decoder would
have done after that byte is never seen.

* `unwrap_eq_unwrapWith`: with the decoder for members, this is `unwrap`.
* `gather_eq_ok_iff`, `gather_eq_tooLarge_iff`, `gather_eq_gzip_iff`: what comes of a source is told
  by how many bytes it has and how it ends.
* `unwrap_of_holds`: a container whose member is whole and not too large is seen through.
* `trailer_of_memberSource`: a member ends without fault only if its trailer agrees with all its bytes.
* `unwrapWith_limit`: so nothing above the limit gets through, and what gets through is whole.
-/

namespace Chiptune
namespace Gzip

/-- See through a container with some decoder: read its bytes to the end, but at most one more than
allowed, and then look at their number. -/
def unwrapWith (decode : ByteArray → ByteSource GzipFault) (data : ByteArray) :
    Except Error ByteArray :=
  if isGzip data then
    match ((decode data).take (maxSize + 1)).readToEnd .empty with
    | .error fault => .error (.decompression (.gzip fault))
    | .ok bytes =>
      if maxSize < bytes.size then .error (.decompression (.tooLarge maxSize)) else .ok bytes
  else .ok data

variable {source : ByteSource GzipFault} {out : ByteArray}

/-! ### Gathering -/

theorem gather_of_fits (h : source.size ≤ maxSize) :
    gather source =
      match source.fault? with
      | none => .ok source.bytes
      | some fault => .error (.decompression (.gzip fault)) := by
  have hempty : ByteArray.empty.size ≤ maxSize := Nat.zero_le _
  have hfits : ¬ maxSize < ByteArray.empty.size + source.size := by
    rw [ByteArray.size_empty, Nat.zero_add]
    exact Nat.not_lt.mpr h
  have hcollect := ByteSource.collect_eq hempty source
  rw [if_neg hfits, ByteSource.result] at hcollect
  rw [gather, hcollect]
  cases source.fault? with
  | none => exact congrArg Except.ok ByteArray.empty_append
  | some fault => rfl

theorem gather_of_excess (h : maxSize < source.size) :
    gather source = .error (.decompression (.tooLarge maxSize)) := by
  have hempty : ByteArray.empty.size ≤ maxSize := Nat.zero_le _
  have hexcess : maxSize < ByteArray.empty.size + source.size := by
    rwa [ByteArray.size_empty, Nat.zero_add]
  rw [gather, (ByteSource.collect_eq_excess_iff hempty source).mpr hexcess]

theorem gather_eq_ok_iff :
    gather source = .ok out ↔
      source.fault? = none ∧ source.size ≤ maxSize ∧ out = source.bytes := by
  by_cases hsize : source.size ≤ maxSize
  · rw [gather_of_fits hsize]
    cases source.fault? <;> simp [hsize, eq_comm]
  · rw [gather_of_excess (Nat.not_le.mp hsize)]
    simp [hsize]

theorem gather_eq_tooLarge_iff :
    gather source = .error (.decompression (.tooLarge maxSize)) ↔ maxSize < source.size := by
  by_cases hsize : source.size ≤ maxSize
  · rw [gather_of_fits hsize]
    cases source.fault? <;> simp [Nat.not_lt.mpr hsize]
  · simp [gather_of_excess (Nat.not_le.mp hsize), Nat.not_le.mp hsize]

theorem gather_eq_gzip_iff {fault : GzipFault} :
    gather source = .error (.decompression (.gzip fault)) ↔
      source.fault? = some fault ∧ source.size ≤ maxSize := by
  by_cases hsize : source.size ≤ maxSize
  · rw [gather_of_fits hsize]
    cases source.fault? <;> simp [hsize]
  · rw [gather_of_excess (Nat.not_le.mp hsize)]
    simp [hsize]

/-- Reading one byte more than allowed tells the same apart as gathering. -/
theorem unwrapWith_of_isGzip {data : ByteArray} (h : isGzip data = true)
    (decode : ByteArray → ByteSource GzipFault) :
    unwrapWith decode data = gather (decode data) := by
  rw [unwrapWith, if_pos h, ByteSource.readToEnd_eq, ByteSource.result, ByteSource.fault?_take]
  by_cases hsize : (decode data).size ≤ maxSize
  · rw [if_neg (by omega), gather_of_fits hsize,
      ByteSource.bytes_take_of_le (Nat.le_succ_of_le hsize)]
    cases (decode data).fault? with
    | none =>
        dsimp only
        rw [ByteArray.empty_append, ByteSource.size_bytes, if_neg (Nat.not_lt.mpr hsize)]
    | some fault => rfl
  · rw [if_pos (by omega), gather_of_excess (Nat.not_le.mp hsize)]
    dsimp only
    rw [ByteArray.empty_append, ByteSource.bytes_take, ByteArray.size_extract,
      ByteSource.size_bytes, if_pos (by omega)]

/-- Seeing through a container is seeing through it with the decoder for members. -/
theorem unwrap_eq_unwrapWith (data : ByteArray) : unwrap data = unwrapWith memberSource data := by
  by_cases h : isGzip data = true
  · rw [unwrapWith_of_isGzip h, unwrap, if_pos h]
  · rw [unwrapWith, unwrap, if_neg h, if_neg h]

/-- What is not seen through is reported as a failure to decompress. -/
theorem unwrap_error {data : ByteArray} {e : Error} (h : unwrap data = .error e) :
    ∃ fault, e = .decompression fault := by
  unfold unwrap gather at h
  split at h
  · split at h
    · cases h
    · exact ⟨_, (Except.error.inj h).symm⟩
    · exact ⟨_, (Except.error.inj h).symm⟩
  · cases h

/-- The first member of an input is whole and holds these bytes. -/
structure Holds (data image : ByteArray) : Prop where
  isGzip : isGzip data = true
  whole : (memberSource data).fault? = none
  bytes : (memberSource data).bytes = image

theorem unwrap_of_holds {data image : ByteArray} (h : Holds data image)
    (hsize : image.size ≤ maxSize) : unwrap data = .ok image := by
  rw [unwrap, if_pos h.isGzip]
  refine gather_eq_ok_iff.mpr ⟨h.whole, ?_, h.bytes.symm⟩
  rwa [← ByteSource.size_bytes, h.bytes]

/-! ### The trailer -/

/-- Folding over as many bytes as there are from a position on. -/
theorem foldlM_loop_eq {β : Type} (f : β → UInt8 → β) (data : ByteArray) (acc : β) {i j : Nat}
    (h : i + j = data.size) :
    ByteArray.foldlM.loop (m := Id) (fun r b => pure (f r b)) data data.size (Nat.le_refl _) i j acc =
      (data.data.toList.drop j).foldl f acc := by
  induction i generalizing j acc with
  | zero =>
      have hj : data.data.toList.length ≤ j := by
        show data.size ≤ j
        omega
      rw [List.drop_eq_nil_of_le hj]
      unfold ByteArray.foldlM.loop
      split <;> rfl
  | succ i ih =>
      have hj : j < data.data.toList.length := by
        show j < data.size
        omega
      rw [List.drop_eq_getElem_cons hj, List.foldl_cons, ← ih _ (by omega), ByteArray.foldlM.loop,
        dif_pos (show j < data.size from hj)]
      rfl

theorem foldl_eq (data : ByteArray) {β : Type} (f : β → UInt8 → β) (acc : β) :
    data.foldl f acc = data.data.toList.foldl f acc := by
  rw [ByteArray.foldl, ByteArray.foldlM, dif_pos (Nat.le_refl _)]
  exact foldlM_loop_eq f data acc (Nat.sub_add_cancel (Nat.zero_le _))

theorem updateAll_append (r : UInt32) (first second : ByteArray) :
    Checksum.updateAll r (first ++ second) =
      Checksum.updateAll (Checksum.updateAll r first) second := by
  rw [Checksum.updateAll, Checksum.updateAll, Checksum.updateAll, foldl_eq, foldl_eq, foldl_eq,
    ByteArray.toList_data_append, List.foldl_append]

/-- Handing over bytes in two chunks counts as handing them over in one. -/
theorem Tally.add_add (t : Tally) (first second : ByteArray) :
    (t.add first).add second = t.add (first ++ second) := by
  rw [Tally.add, Tally.add, Tally.add, updateAll_append, ByteArray.size_append, Nat.add_assoc]

/-- Of a chunk, the bytes and what comes behind it, if that ends at a trailer. -/
theorem trailer_of_chunk {data : ByteArray} {t : Tally} {bytes : ByteArray}
    {rest : ByteSource GzipFault}
    (h : ∃ position, trailer data position ((t.add bytes).add rest.bytes) = .finished) :
    ∃ position, trailer data position
      (t.add (ByteSource.chunk bytes fun _ => rest).bytes) = .finished := by
  rwa [ByteSource.bytes, ← Tally.add_add]

theorem trailer_of_fault? {data : ByteArray} {position : Nat} {t : Tally}
    (h : (trailer data position t).fault? = none) :
    ∃ position', trailer data position' (t.add (trailer data position t).bytes) = .finished := by
  have hfinished : trailer data position t = .finished := by
    unfold trailer at h ⊢
    dsimp only at h ⊢
    split at h
    case isTrue => cases h
    case isFalse hthere =>
      rw [if_neg hthere]
      split at h
      case isTrue hagrees => rw [if_pos hagrees]
      case isFalse => cases h
  rw [hfinished]
  exact ⟨position, hfinished⟩

/-- The pending bytes are counted when they are handed over. -/
theorem Delivery.tally_handOver (s : Delivery) : s.handOver.tally = s.tally.add s.pending := rfl

theorem Delivery.tally_openWindow (s : Delivery) : s.openWindow.tally = s.tally := by
  cases s
  rfl

theorem Delivery.tally_takePart (s : Delivery) : s.takePart.tally = s.tally := by
  cases s
  rfl

/-- A delivery ends without fault only at a trailer that agrees with all that has been handed
over. -/
theorem trailer_of_deliver {data : ByteArray} {fuel : Nat} {s : Delivery}
    (h : (deliver data fuel s).fault? = none) :
    ∃ position, trailer data position (s.tally.add (deliver data fuel s).bytes) = .finished := by
  induction fuel generalizing s with
  | zero => cases h
  | succ fuel ih =>
      rw [deliver] at h ⊢
      dsimp only at h ⊢
      split at h
      case h_1 inflater _ =>
        refine trailer_of_chunk ?_
        rw [ByteSource.fault?] at h
        split at h
        case isTrue hfinished =>
          rw [if_pos hfinished]
          exact trailer_of_fault? h
        case isFalse hgoing =>
          rw [if_neg hgoing]
          simpa only [Delivery.tally_openWindow, Delivery.tally_handOver] using ih h
      case h_2 inflater _ =>
        refine trailer_of_chunk ?_
        rw [ByteSource.fault?] at h
        split at h
        case isTrue => cases h
        case isFalse hpart =>
          rw [if_neg hpart]
          simpa only [Delivery.tally_takePart, Delivery.tally_handOver] using ih h
      case h_3 => cases h

/-- A member ends without fault only if its trailer agrees with all its bytes. -/
theorem trailer_of_memberSource {data : ByteArray} (h : (memberSource data).fault? = none) :
    ∃ position, trailer data position (Tally.zero.add (memberSource data).bytes) = .finished := by
  unfold memberSource at h ⊢
  split at h
  · cases h
  · exact trailer_of_deliver h

/-! ### What gets through -/

/-- **The limit.**  What has no container is left as it is, however long.  What has one is given to a
decoder, whatever that is, and what comes of it depends on how many bytes the decoder hands over and
how it ends.  All its bytes come of it exactly if they are at most 64 MiB and it ends without fault.
If they are more, that is what is reported, whatever would have come behind them; if they are not, its
fault is.  So no more than 64 MiB ever come of a container, and 64 MiB to the byte do exactly if the
end is clean.  The program has the decoder for members; what it lets through agrees with its
trailer. -/
theorem unwrapWith_limit (decode : ByteArray → ByteSource GzipFault) (data : ByteArray) :
    let source := decode data
    let limit := 64 * 1024 * 1024
    (isGzip data = false → unwrapWith decode data = .ok data ∧ unwrap data = .ok data) ∧
    (isGzip data = true →
      (∀ out, unwrapWith decode data = .ok out ↔
        source.fault? = none ∧ source.size ≤ limit ∧ out = source.bytes) ∧
      (unwrapWith decode data = .error (.decompression (.tooLarge limit)) ↔
        limit + 1 ≤ source.size) ∧
      (∀ fault, unwrapWith decode data = .error (.decompression (.gzip fault)) ↔
        source.fault? = some fault ∧ source.size < limit + 1) ∧
      (∀ out, unwrapWith decode data = .ok out → out.size ≤ limit) ∧
      (source.size = limit →
        ((∃ out, unwrapWith decode data = .ok out) ↔ source.fault? = none))) ∧
    unwrap data = unwrapWith memberSource data ∧
    (isGzip data = true → ∀ out, unwrap data = .ok out →
      ∃ position, trailer data position (Tally.zero.add out) = .finished) := by
  intro source limit
  refine ⟨fun hplain => ?_, fun hgzip => ?_, unwrap_eq_unwrapWith data, fun hgzip out hout => ?_⟩
  · rw [unwrapWith, unwrap, hplain]
    exact ⟨rfl, rfl⟩
  · rw [unwrapWith_of_isGzip hgzip]
    refine ⟨fun out => gather_eq_ok_iff, gather_eq_tooLarge_iff, fun fault => ?_, fun out hout => ?_,
      fun hsize => ?_⟩
    · rw [gather_eq_gzip_iff, Nat.lt_succ_iff]
      rfl
    · obtain ⟨-, hsize, rfl⟩ := gather_eq_ok_iff.mp hout
      rwa [ByteSource.size_bytes]
    · constructor
      · rintro ⟨out, hout⟩
        exact (gather_eq_ok_iff.mp hout).1
      · intro hclean
        exact ⟨_, gather_eq_ok_iff.mpr ⟨hclean, Nat.le_of_eq hsize, rfl⟩⟩
  · rw [unwrap, if_pos hgzip] at hout
    obtain ⟨hclean, -, rfl⟩ := gather_eq_ok_iff.mp hout
    exact trailer_of_memberSource hclean

/-- A source of so many zero bytes with some end. -/
def zeros (count : Nat) (ending : ByteSource GzipFault) : ByteSource GzipFault :=
  .chunk (List.replicate count 0).toByteArray fun _ => ending

theorem size_zeros (count : Nat) (ending : ByteSource GzipFault) :
    (zeros count ending).size = count + ending.size := by
  rw [zeros, ByteSource.size, List.size_toByteArray, List.length_replicate]

/-- At the limit, a bad end is what is reported; one byte further, the number of bytes is. -/
theorem unwrapWith_limit_boundary :
    isGzip ⟨#[0x1F, 0x8B]⟩ = true ∧ isGzip ⟨#[0x1F]⟩ = false ∧
      unwrapWith (fun _ => zeros (64 * 1024 * 1024) (.failed .checksumMismatch)) ⟨#[0x1F, 0x8B]⟩ =
        .error (.decompression (.gzip .checksumMismatch)) ∧
      unwrapWith (fun _ => zeros (64 * 1024 * 1024 + 1) (.failed .checksumMismatch))
          ⟨#[0x1F, 0x8B]⟩ =
        .error (.decompression (.tooLarge (64 * 1024 * 1024))) ∧
      (∃ out, unwrapWith (fun _ => zeros (64 * 1024 * 1024) .finished) ⟨#[0x1F, 0x8B]⟩ = .ok out) ∧
      unwrap ⟨#[0x1F]⟩ = .ok ⟨#[0x1F]⟩ := by
  have hgzip : isGzip ⟨#[0x1F, 0x8B]⟩ = true := by decide
  have hplain : isGzip ⟨#[0x1F]⟩ = false := by decide
  refine ⟨hgzip, hplain, ?_, ?_, ?_, ?_⟩
  · obtain ⟨-, -, hfault, -⟩ := (unwrapWith_limit
      (fun _ => zeros (64 * 1024 * 1024) (.failed .checksumMismatch)) _).2.1 hgzip
    exact (hfault _).mpr ⟨rfl, Nat.lt_succ_of_le (Nat.le_of_eq (size_zeros _ _))⟩
  · obtain ⟨-, hexcess, -⟩ := (unwrapWith_limit
      (fun _ => zeros (64 * 1024 * 1024 + 1) (.failed .checksumMismatch)) _).2.1 hgzip
    refine hexcess.mpr ?_
    rw [size_zeros]
    exact Nat.le_add_right _ _
  · obtain ⟨-, -, -, -, hexact⟩ := (unwrapWith_limit
      (fun _ => zeros (64 * 1024 * 1024) .finished) _).2.1 hgzip
    exact (hexact (size_zeros _ _)).mpr rfl
  · exact ((unwrapWith_limit memberSource _).1 hplain).2

end Gzip
end Chiptune
