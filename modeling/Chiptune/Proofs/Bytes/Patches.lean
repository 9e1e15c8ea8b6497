import Chiptune.Proofs.Bytes.Positions

/-!
# Bytes — Patches

Bytes put in place of those from a position on (`overlay`).  The data keeps its length.  A patch is
some bytes and the position they go to.  Data can also be made of patches from the start, one behind
the other (`Patch.inRow`).

* `Patch.standsIn_apply`: a patch that lies inside the data stands there when it is applied.
* `Patch.StandsIn.apply`: what is clear of a patch stands where it stood.
* `Patch.standsIn_applyAll`: so of patches that are clear of each other, each stands in the data
  when all are applied, in whatever order.
* `Patch.standsIn_of_mem_inRow`: of bytes in a row, each stand at the position the row gives them.
-/

namespace Chiptune

/-- The data with some bytes in place of those from a position on; what would come past the end is
left out. -/
def overlay (data : ByteArray) (offset : Nat) : List UInt8 → ByteArray
  | [] => data
  | b :: rest => overlay ⟨data.data.setIfInBounds offset b⟩ (offset + 1) rest

@[simp] theorem size_overlay (data : ByteArray) (offset : Nat) (bytes : List UInt8) :
    (overlay data offset bytes).size = data.size := by
  induction bytes generalizing data offset with
  | nil => rfl
  | cons b rest ih => exact (ih _ _).trans Array.size_setIfInBounds

/-- Outside the bytes that are put down, the data is as it was. -/
theorem getElem?_overlay_of_outside {data : ByteArray} {offset k : Nat} {bytes : List UInt8}
    (h : k < offset ∨ offset + bytes.length ≤ k) : (overlay data offset bytes)[k]? = data[k]? := by
  induction bytes generalizing data offset with
  | nil => rfl
  | cons b rest ih =>
      rw [List.length_cons] at h
      have hne : offset ≠ k := by omega
      rw [overlay, ih (by omega)]
      exact Array.getElem?_setIfInBounds_ne hne

/-- Bytes put down inside the data stand there. -/
theorem hasBytesAt_overlay {data : ByteArray} {offset : Nat} {bytes : List UInt8}
    (h : offset + bytes.length ≤ data.size) :
    hasBytesAt (overlay data offset bytes) offset bytes = true := by
  induction bytes generalizing data offset with
  | nil => rfl
  | cons b rest ih =>
      rw [List.length_cons] at h
      have hfirst : (overlay data offset (b :: rest))[offset]? = some b := by
        rw [overlay, getElem?_overlay_of_outside (.inl (Nat.lt_succ_self offset))]
        exact Array.getElem?_setIfInBounds_self_of_lt (show offset < data.size by omega)
      have hsize : (⟨data.data.setIfInBounds offset b⟩ : ByteArray).size = data.size :=
        Array.size_setIfInBounds
      rw [hasBytesAt, Bool.and_eq_true, beq_iff_eq]
      exact ⟨hfirst, ih (by omega)⟩

/-- Some bytes and the position they go to. -/
structure Patch where
  position : Nat
  bytes : List UInt8

namespace Patch

variable {data : ByteArray} {p q : Patch} {patches : List Patch}

/-- The position behind the bytes. -/
def stop (p : Patch) : Nat :=
  p.position + p.bytes.length

/-- The data with the bytes at their position. -/
def apply (data : ByteArray) (p : Patch) : ByteArray :=
  overlay data p.position p.bytes

/-- The data with patch after patch applied. -/
def applyAll (data : ByteArray) (patches : List Patch) : ByteArray :=
  patches.foldl apply data

/-- The bytes are at their position. -/
def StandsIn (p : Patch) (data : ByteArray) : Prop :=
  hasBytesAt data p.position p.bytes = true

/-- No position is in both patches. -/
def Clear (p q : Patch) : Prop :=
  p.stop ≤ q.position ∨ q.stop ≤ p.position

@[simp] theorem size_apply (data : ByteArray) (p : Patch) : (apply data p).size = data.size :=
  size_overlay data p.position p.bytes

@[simp] theorem size_applyAll (data : ByteArray) (patches : List Patch) :
    (applyAll data patches).size = data.size := by
  induction patches generalizing data with
  | nil => rfl
  | cons p rest ih => exact (ih (apply data p)).trans (size_apply data p)

theorem standsIn_apply (h : p.stop ≤ data.size) : p.StandsIn (apply data p) :=
  hasBytesAt_overlay h

theorem StandsIn.apply (h : p.StandsIn data) (hclear : p.Clear q) :
    p.StandsIn (Patch.apply data q) := by
  refine (hasBytesAt_congr fun k hk => getElem?_overlay_of_outside ?_).trans h
  rcases hclear with hbefore | hbehind
  · have hstop : p.position + p.bytes.length ≤ q.position := hbefore
    omega
  · have hstop : q.position + q.bytes.length ≤ p.position := hbehind
    omega

/-- What is clear of all patches stands where it stood. -/
theorem StandsIn.applyAll (h : p.StandsIn data) (hclear : ∀ q ∈ patches, p.Clear q) :
    p.StandsIn (Patch.applyAll data patches) := by
  induction patches generalizing data with
  | nil => exact h
  | cons q rest ih =>
      obtain ⟨hq, hrest⟩ := List.forall_mem_cons.mp hclear
      exact ih (h.apply hq) hrest

/-- Of patches that are clear of each other, each stands in the data when all are applied. -/
theorem standsIn_applyAll (hclear : patches.Pairwise Clear)
    (hinside : ∀ q ∈ patches, q.stop ≤ data.size) (hp : p ∈ patches) :
    p.StandsIn (applyAll data patches) := by
  induction patches generalizing data with
  | nil => cases hp
  | cons q rest ih =>
      obtain ⟨hfirst, hlater⟩ := List.pairwise_cons.mp hclear
      obtain ⟨hq, hrest⟩ := List.forall_mem_cons.mp hinside
      rcases List.mem_cons.mp hp with rfl | hmem
      · exact (standsIn_apply hq).applyAll hfirst
      · refine ih hlater (fun r hr => ?_) hmem
        rw [size_apply]
        exact hrest r hr

/-- Bytes one behind the other, each with the position they start at. -/
def inRow (offset : Nat) : List (List UInt8) → List Patch
  | [] => []
  | bytes :: rest => ⟨offset, bytes⟩ :: inRow (offset + bytes.length) rest

/-- Bytes in a row behind others stand at their positions. -/
theorem standsIn_append_of_mem_inRow {parts : List (List UInt8)} (front : ByteArray)
    (hp : p ∈ inRow front.size parts) : p.StandsIn (front ++ parts.flatten.toByteArray) := by
  induction parts generalizing front with
  | nil => cases hp
  | cons bytes rest ih =>
      rw [List.flatten_cons, List.toByteArray_append, ← ByteArray.append_assoc]
      rcases List.mem_cons.mp hp with rfl | hrest
      · rw [ByteArray.append_assoc, ← List.toByteArray_append]
        exact (hasBytesAt_append_add front _ 0 bytes).trans (hasBytesAt_toByteArray bytes _)
      · refine ih (front ++ bytes.toByteArray) ?_
        rwa [ByteArray.size_append, List.size_toByteArray]

/-- Of bytes in a row, each stand at the position the row gives them, whatever comes behind. -/
theorem standsIn_of_mem_inRow {parts : List (List UInt8)} (back : ByteArray)
    (hp : p ∈ inRow 0 parts) : p.StandsIn (parts.flatten.toByteArray ++ back) := by
  have hrow := standsIn_append_of_mem_inRow ByteArray.empty hp
  rw [ByteArray.empty_append] at hrow
  exact hasBytesAt_append back hrow

end Patch

end Chiptune
