import Chiptune.File.Path
import Chiptune.Proofs.File.Writes
import Mathlib.Data.String.Basic

/-!
# File — Names

A path without slashes is a name.  It leads to the file of that name in the directory the program
runs in (`Place.ofPath_of_isName`), whatever the directory holds.

* `FileTree.read_of_isName`, `FileTree.write_of_isName`: what is read by a name is what stands
  there, and a file can be written by any name that is not a directory's.
* `Path.withExtension_of_stem`: a name takes another extension behind its last dot, and keeps
  everything in front of it.  What leads to the name does not matter.
-/

namespace Chiptune

open String (ofList utf8Len)

/-- A path that is a name, and one that a file can have. -/
@[mk_iff]
structure IsName (name : String) : Prop where
  noSlash : '/' ∉ name.toList
  noZero : (name.toList.any fun c => c.toNat == 0) = false
  ne_empty : name ≠ ""
  notDots : FileTree.isDots name = false
  short : name.utf8ByteSize ≤ FileTree.maxPartLength

instance : DecidablePred IsName := fun name => decidable_of_iff' _ (isName_iff name)

/-! ### The place of a name -/

namespace Place

/-- Splitting goes on to the end of a text in which no slash is to come. -/
theorem splitOnAux_of_not_mem (front : List Char) {back : List Char} (h : '/' ∉ back) :
    String.splitOnAux (ofList (front ++ back)) "/" 0 ⟨utf8Len front⟩ 0 [] =
      [ofList (front ++ back)] := by
  induction back generalizing front with
  | nil =>
      have hall := String.extract_of_valid [] front []
      rw [String.splitOnAux, if_pos ((String.atEnd_of_valid front []).mpr rfl)]
      simpa using hall
  | cons c rest ih =>
      obtain ⟨hc, hrest⟩ := not_or.mp (mt List.mem_cons.mpr h)
      have hget := String.get_of_valid front (c :: rest)
      have hnext : String.Pos.Raw.next (ofList (front ++ c :: rest))
          (String.Pos.Raw.unoffsetBy ⟨utf8Len front⟩ 0) = ⟨utf8Len (front ++ [c])⟩ := by
        rw [String.utf8Len_append, String.utf8Len_cons, String.utf8Len_nil, Nat.zero_add]
        exact String.next_of_valid front c rest
      have hother : ¬ (String.Pos.Raw.get (ofList (front ++ c :: rest)) ⟨utf8Len front⟩ ==
          String.Pos.Raw.get "/" 0) = true := by
        rw [hget, beq_iff_eq]
        exact fun heq => hc heq.symm
      have hmore : ¬ String.Pos.Raw.atEnd (ofList (front ++ c :: rest)) ⟨utf8Len front⟩ = true :=
        mt (String.atEnd_of_valid front (c :: rest)).mp (List.cons_ne_nil c rest)
      rw [String.splitOnAux, if_neg hmore, if_neg hother, hnext, List.append_cons]
      exact ih (front ++ [c]) hrest

theorem parts_of_isName {name : String} (h : IsName name) : parts name = [name] := by
  have hsplit : name.splitOn "/" = [name] := by
    have hall := splitOnAux_of_not_mem [] h.noSlash
    rw [List.nil_append, String.ofList_toList] at hall
    exact hall
  rw [parts, hsplit, List.filter_cons_of_pos (by simpa using h.ne_empty), List.filter_nil]

theorem start_of_isName {name : String} (h : IsName name) : start name = ⟨.above 0, []⟩ := by
  have hslash : ¬ name.startsWith "/" = true := by
    rw [String.startsWith_string_iff]
    exact fun hfront => h.noSlash (hfront.subset (List.mem_singleton_self '/'))
  rw [start, if_neg hslash]

theorem down_of_isName {name : String} (h : IsName name) :
    down ⟨.above 0, []⟩ name = ⟨.above 0, [name]⟩ :=
  down_of_not_isDots h.notDots _

/-- A name leads to the file of that name beside the program. -/
theorem ofPath_of_isName {name : String} (h : IsName name) : ofPath name = ⟨.above 0, [name]⟩ := by
  rw [ofPath, parts_of_isName h, start_of_isName h]
  exact down_of_isName h

end Place

namespace FileTree

variable {tree : FileTree} {name : String}

theorem refusal?_of_isName (h : IsName name) : refusal? name = none := by
  have hzero : ¬ (name.toList.any fun c => c.toNat == 0) = true := by
    rw [h.noZero]
    exact Bool.false_ne_true
  have hlong : ¬ maxPathLength < name.utf8ByteSize := by
    have hshort := h.short
    unfold maxPartLength at hshort
    unfold maxPathLength
    omega
  rw [refusal?, if_neg hzero, if_neg h.ne_empty, if_neg hlong]

theorem endsWith_of_isName (h : IsName name) : ¬ name.endsWith "/" = true := by
  show ¬ name.toSlice.endsWith "/" = true
  rw [String.Slice.endsWith_string_iff, String.copy_toSlice]
  exact fun hback => h.noSlash (hback.subset (List.mem_singleton_self '/'))

/-- The file at the place of a name is read by it. -/
theorem read_of_isName (h : IsName name) {contents : ByteArray}
    (hfile : tree.node? ⟨.above 0, [name]⟩ = some (.file contents)) :
    tree.read name = .ok contents := by
  have hthere : tree.node? (Place.down ⟨.above 0, []⟩ name) ≠ none := by
    rw [Place.down_of_isName h, hfile]
    nofun
  have hdescend : tree.descend ⟨.above 0, []⟩ [name] = .ok ⟨.above 0, [name]⟩ := by
    rw [descend_cons_of (node?_of_nil rfl) h.short hthere, Place.down_of_isName h]
    rfl
  rw [read, refusal?_of_isName h]
  dsimp only
  rw [Place.parts_of_isName h, Place.start_of_isName h, hdescend]
  dsimp only
  rw [hfile]
  exact if_neg (endsWith_of_isName h)

/-- By a name that is not a directory's, any contents can be written. -/
theorem write_of_isName (h : IsName name)
    (hfree : tree.node? ⟨.above 0, [name]⟩ ≠ some .directory) (contents : ByteArray) :
    tree.write name contents = .ok (tree.put ⟨.above 0, [name]⟩ contents) := by
  have hfile : ¬ (isDots name = true ∨ name.endsWith "/" = true) := by
    rw [h.notDots]
    exact not_or.mpr ⟨Bool.false_ne_true, endsWith_of_isName h⟩
  rw [write, refusal?_of_isName h]
  dsimp only
  rw [Place.parts_of_isName h, Place.start_of_isName h, List.dropLast_singleton, descend]
  dsimp only
  rw [node?_of_nil rfl, List.getLast?_singleton]
  dsimp only
  rw [if_neg hfile, if_neg (Nat.not_lt.mpr h.short), Place.down_of_isName h]
  split
  · rename_i hdirectory
    exact absurd hdirectory hfree
  · rfl

end FileTree

/-! ### Extensions -/

namespace Path

/-- Nothing is cut off behind a name, as long as it is no lone dot. -/
theorem trimReversed_of_name {name : List Char} (hne : name ≠ []) (hdot : name ≠ ['.'])
    (hslash : '/' ∉ name) (back : List Char) : trimReversed (name ++ back) = name ++ back := by
  obtain ⟨c, rest, rfl⟩ := List.exists_cons_of_ne_nil hne
  obtain ⟨hc, hrest⟩ := not_or.mp (mt List.mem_cons.mpr hslash)
  rw [List.cons_append]
  unfold trimReversed
  split
  case h_1 heq => exact absurd (List.cons.inj heq).1.symm hc
  case h_2 behind heq =>
    obtain ⟨rfl, hbehind⟩ := List.cons.inj heq
    cases rest with
    | nil => exact absurd rfl hdot
    | cons d _ =>
        have hd : d = '/' := (List.cons.inj hbehind).1
        exact absurd (hd ▸ List.mem_cons_self) hrest
  case h_3 heq =>
    obtain ⟨rfl, hnil⟩ := List.cons.inj heq
    rw [(List.append_eq_nil_iff.mp hnil).1] at hdot
    exact absurd rfl hdot
  case h_4 => rfl

variable {front stem : List Char}

/-- What stands behind the last slash is the last part, unless it is a dot or two. -/
theorem lastPart?_of_name {name : List Char} (hfront : front = [] ∨ front.getLast? = some '/')
    (hne : name ≠ []) (hdot : name ≠ ['.']) (hdots : name ≠ ['.', '.']) (hslash : '/' ∉ name) :
    lastPart? (front ++ name) = some (front ++ name, name) := by
  have hbody : trimReversed (front ++ name).reverse = name.reverse ++ front.reverse := by
    rw [List.reverse_append]
    exact trimReversed_of_name (mt List.reverse_eq_nil_iff.mp hne)
      (fun h => hdot (List.reverse_inj.mp h)) (mt List.mem_reverse.mp hslash) _
  have hname : (name.reverse ++ front.reverse).takeWhile (· ≠ '/') = name.reverse := by
    have hnone : front.reverse.takeWhile (· ≠ '/') = [] := by
      rcases hfront with rfl | hlast
      · rfl
      · rw [← List.head?_reverse] at hlast
        obtain ⟨before, hbefore⟩ := List.head?_eq_some_iff.mp hlast
        rw [hbefore]
        exact List.takeWhile_cons_of_neg (by decide)
    have hall : ∀ c ∈ name.reverse, decide (c ≠ '/') = true := fun c hc =>
      decide_eq_true fun heq => hslash (heq ▸ List.mem_reverse.mp hc)
    rw [List.takeWhile_append_of_pos hall, hnone, List.append_nil]
  have hplain : ¬ (name.isEmpty = true ∨ name = ['.', '.']) := by
    rw [List.isEmpty_iff]
    exact not_or.mpr ⟨hne, hdots⟩
  rw [lastPart?, hbody, hname, List.reverse_reverse, if_neg hplain, List.reverse_append,
    List.reverse_reverse, List.reverse_reverse]

/-- What stands behind the last dot of a name is its extension. -/
theorem extension?_of_stem (hstem : stem ≠ []) {old : List Char} (hold : '.' ∉ old) :
    extension? (stem ++ '.' :: old) = some old := by
  have hreverse : (stem ++ '.' :: old).reverse = old.reverse ++ '.' :: stem.reverse := by simp
  have hall : ∀ c ∈ old.reverse, decide (c ≠ '.') = true := fun c hc =>
    decide_eq_true fun heq => hold (heq ▸ List.mem_reverse.mp hc)
  have htail : (old.reverse ++ '.' :: stem.reverse).takeWhile (· ≠ '.') = old.reverse := by
    rw [List.takeWhile_append_of_pos hall, List.takeWhile_cons_of_neg (by decide),
      List.append_nil]
  have hlong : ¬ (old.reverse ++ '.' :: stem.reverse).length ≤ old.reverse.length + 1 := by
    have hpos := List.length_pos_iff.mpr hstem
    rw [List.length_append, List.length_cons, List.length_reverse, List.length_reverse]
    omega
  rw [extension?, hreverse, htail, if_neg hlong, List.reverse_reverse]

/-- **Another extension.**  It stands behind the last dot of the name, where the old one was, and
everything in front of that dot is kept. -/
theorem withExtension_of_stem (hfront : front = [] ∨ front.getLast? = some '/')
    (hstem : stem ≠ []) (hdot : stem ≠ ['.']) (hslash : '/' ∉ stem) {old : List Char}
    (holdSlash : '/' ∉ old) (holdDot : '.' ∉ old) (extension : String) :
    withExtension (ofList (front ++ (stem ++ '.' :: old))) extension =
      ofList (front ++ (stem ++ '.' :: extension.toList)) := by
  -- a name of this shape is the last part, with the old extension and with none behind its dot
  have hpart : ∀ behind, '/' ∉ behind →
      lastPart? (front ++ (stem ++ '.' :: behind)) =
        some (front ++ (stem ++ '.' :: behind), stem ++ '.' :: behind) := by
    intro behind hbehind
    obtain ⟨c, rest, rfl⟩ := List.exists_cons_of_ne_nil hstem
    refine lastPart?_of_name hfront (by simp) (by simp) (fun heq => hdot ?_) (by simp_all)
    obtain ⟨rfl, hrest⟩ := List.cons.inj heq
    cases rest with
    | nil => rfl
    | cons d rest => simp at hrest
  have hcut : (front ++ (stem ++ '.' :: old)).take
      ((front ++ (stem ++ '.' :: old)).length - old.length) = front ++ (stem ++ ['.']) := by
    have hsplit : front ++ (stem ++ '.' :: old) = front ++ (stem ++ ['.']) ++ old := by simp
    rw [hsplit, List.length_append, Nat.add_sub_cancel, List.take_left']
    rfl
  have hkept : (front ++ (stem ++ ['.'])).take
      ((front ++ (stem ++ ['.'])).length - ([] : List Char).length - 1) = front ++ stem := by
    have hsplit : front ++ (stem ++ ['.']) = front ++ stem ++ ['.'] := by simp
    rw [hsplit, List.length_append, List.length_nil, Nat.sub_zero, List.length_singleton,
      Nat.add_sub_cancel, List.take_left']
    rfl
  rw [withExtension, String.toList_ofList, hpart old holdSlash]
  dsimp only
  rw [extension?_of_stem hstem holdDot]
  dsimp only
  rw [hcut, setExtension, hpart [] List.not_mem_nil]
  dsimp only
  rw [extension?_of_stem hstem List.not_mem_nil]
  dsimp only
  rw [hkept, List.append_assoc]

end Path

end Chiptune
