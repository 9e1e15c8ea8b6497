import Chiptune.File.Tree
import Mathlib.Data.List.Infix

/-!
# File — Writes

A write changes one place.  Whatever path leads there, by way of `..` or from the top, every
directory on the way to it was there before (`OpenTo`), so putting a file at its end makes no
directory appear or go.

* `openTo_of_descend`: going down a path, the way behind stays open.
* `node?_put`: a file that is put at the end of an open way leaves every other place as it was.
* `write_eq_ok`: so a write puts the contents where its path leads, where they can be read again by
  the same path, and changes nothing else.
-/

namespace Chiptune

namespace Place

theorem holds_iff {directory place : Place} :
    directory.holds place = true ↔
      directory.base = place.base ∧ directory.names <+: place.names := by
  rw [holds, Bool.and_eq_true, beq_iff_eq, List.isPrefixOf_iff_prefix]

/-- A part leads to the end of a way, to a directory on the way, or one step on. -/
theorem down_cases (place : Place) (part : String) :
    (place.down part).names = [] ∨
      ((place.down part).base = place.base ∧ (place.down part).names <+: place.names) ∨
      place.down part = ⟨place.base, place.names ++ [part]⟩ := by
  unfold down
  split
  · exact .inr (.inl ⟨rfl, List.prefix_rfl⟩)
  · exact .inl rfl
  · exact .inr (.inl ⟨rfl, List.dropLast_prefix _⟩)
  · exact .inr (.inr rfl)

theorem down_of_not_isDots {part : String} (h : FileTree.isDots part = false) (place : Place) :
    place.down part = ⟨place.base, place.names ++ [part]⟩ := by
  unfold FileTree.isDots at h
  unfold down
  split
  · cases h
  · cases h
  · cases h
  · rfl

end Place

namespace FileTree

variable {tree tree' : FileTree} {place place' : Place} {path : String} {contents : ByteArray}

theorem node?_of_nil (h : place.names = []) : tree.node? place = some .directory := by
  rw [node?, if_pos h]

/-! ### The way to a place -/

/-- Every directory on the way to a place is there. -/
def OpenTo (tree : FileTree) (place : Place) : Prop :=
  ∀ directory : Place, directory ≠ place → directory.holds place = true →
    tree.node? directory = some .directory

theorem openTo_of_nil (h : place.names = []) : tree.OpenTo place := by
  intro directory _ hholds
  have hnames := (Place.holds_iff.mp hholds).2
  rw [h] at hnames
  exact node?_of_nil (List.prefix_nil.mp hnames)

/-- From a directory with an open way to it, the way to the next place is open. -/
theorem OpenTo.down (h : tree.OpenTo place) (hplace : tree.node? place = some .directory)
    (part : String) : tree.OpenTo (place.down part) := by
  have hbefore : ∀ directory : Place, directory.base = place.base →
      directory.names <+: place.names → tree.node? directory = some .directory := by
    intro directory hbase hnames
    by_cases heq : directory = place
    · rw [heq]
      exact hplace
    · exact h directory heq (Place.holds_iff.mpr ⟨hbase, hnames⟩)
  -- one step on, the place itself is a directory on the way; else the way is one already gone
  rcases place.down_cases part with hnil | ⟨hbase, hnames⟩ | hdown
  · exact openTo_of_nil hnil
  · intro directory _ hholds
    obtain ⟨hb, hn⟩ := Place.holds_iff.mp hholds
    exact hbefore directory (hb.trans hbase) (hn.trans hnames)
  · intro directory hne hholds
    rw [hdown] at hne hholds
    obtain ⟨hb, hn⟩ := Place.holds_iff.mp hholds
    rcases List.prefix_concat_iff.mp hn with hend | hn
    · exact absurd (congrArg₂ Place.mk hb hend) hne
    · exact hbefore directory hb hn

/-- What going down one part of a path asks for. -/
theorem descend_cons {part : String} {rest : List String}
    (h : tree.descend place (part :: rest) = .ok place') :
    tree.node? place = some .directory ∧ part.utf8ByteSize ≤ maxPartLength ∧
      tree.node? (place.down part) ≠ none ∧ tree.descend (place.down part) rest = .ok place' := by
  rw [descend] at h
  split at h
  · cases h
  · cases h
  · rename_i hplace
    split at h
    · cases h
    · rename_i hlength
      split at h
      · cases h
      · rename_i node hnode
        exact ⟨hplace, Nat.le_of_not_lt hlength, by rw [hnode]; nofun, h⟩

theorem descend_cons_of {part : String} {rest : List String}
    (hplace : tree.node? place = some .directory) (hlength : part.utf8ByteSize ≤ maxPartLength)
    (hnode : tree.node? (place.down part) ≠ none) :
    tree.descend place (part :: rest) = tree.descend (place.down part) rest := by
  obtain ⟨node, hnode⟩ := Option.ne_none_iff_exists'.mp hnode
  rw [descend, hplace]
  dsimp only
  rw [if_neg (Nat.not_lt.mpr hlength), hnode]

/-- Going down a path ends where the path leads, and the way there is open. -/
theorem openTo_of_descend {parts : List String} (hopen : tree.OpenTo place)
    (h : tree.descend place parts = .ok place') :
    place' = parts.foldl Place.down place ∧ tree.OpenTo place' := by
  induction parts generalizing place with
  | nil =>
      cases h
      exact ⟨rfl, hopen⟩
  | cons part rest ih =>
      obtain ⟨hplace, -, -, hrest⟩ := descend_cons h
      exact ih (hopen.down hplace part) hrest

/-- In a tree that has lost no directory and no other node, every way down is still there. -/
theorem descend_mono {parts : List String}
    (hdirectory : ∀ p, tree.node? p = some .directory → tree'.node? p = some .directory)
    (hnode : ∀ p, tree.node? p ≠ none → tree'.node? p ≠ none)
    (h : tree.descend place parts = .ok place') : tree'.descend place parts = .ok place' := by
  induction parts generalizing place with
  | nil => exact h
  | cons part rest ih =>
      obtain ⟨hplace, hlength, hthere, hrest⟩ := descend_cons h
      rw [descend_cons_of (hdirectory _ hplace) hlength (hnode _ hthere)]
      exact ih hrest

/-- Going down a path can be cut anywhere. -/
theorem descend_append {first second : List String}
    (h : tree.descend place first = .ok place') :
    tree.descend place (first ++ second) = tree.descend place' second := by
  induction first generalizing place with
  | nil =>
      cases h
      rfl
  | cons part rest ih =>
      obtain ⟨hplace, hlength, hthere, hrest⟩ := descend_cons h
      rw [List.cons_append, descend_cons_of hplace hlength hthere, ih hrest]

/-! ### Putting a file at a place -/

theorem find?_put {p : Place} (h : p ≠ place) (contents : ByteArray) :
    ((tree.put place contents).entries.find? fun entry => entry.1 == p) =
      tree.entries.find? fun entry => entry.1 == p := by
  show List.find? _ ((place, .file contents) :: tree.entries.filter _) = _
  rw [List.find?_cons_of_neg (by simpa using h.symm), List.find?_filter]
  refine congrArg (List.find? · tree.entries) (funext fun entry => ?_)
  by_cases hentry : entry.1 = p
  · simp [hentry, h]
  · simp [hentry]

/-- A directory has the new file in it, or something it had in it before. -/
theorem any_put (contents : ByteArray) (p : Place) :
    ((tree.put place contents).entries.any fun entry => p.holds entry.1) =
      (p.holds place || tree.entries.any fun entry => p.holds entry.1) := by
  show List.any ((place, .file contents) :: tree.entries.filter _) _ = _
  rw [List.any_cons, List.any_filter]
  cases hholds : p.holds place with
  | true => rfl
  | false =>
      rw [Bool.false_or, Bool.false_or]
      refine congrArg (List.any tree.entries) (funext fun entry => ?_)
      by_cases hentry : entry.1 = place
      · rw [hentry, hholds, Bool.and_false]
      · rw [bne_iff_ne.mpr hentry, Bool.true_and]

/-- A file at the end of an open way: there it is, and every other place is as before. -/
theorem node?_put (hopen : tree.OpenTo place) (hnames : place.names ≠ []) (contents : ByteArray)
    (p : Place) :
    (tree.put place contents).node? p =
      if p = place then some (.file contents) else tree.node? p := by
  by_cases hp : p = place
  · have hfound : ((tree.put place contents).entries.find? fun entry => entry.1 == place) =
        some (place, .file contents) := List.find?_cons_of_pos (beq_self_eq_true place)
    rw [if_pos hp, hp, node?, if_neg hnames, hfound]
  · rw [if_neg hp, node?, node?]
    by_cases hnil : p.names = []
    · rw [if_pos hnil, if_pos hnil]
    · rw [if_neg hnil, if_neg hnil, find?_put hp, any_put]
      cases hholds : p.holds place with
      | false => rw [Bool.false_or]
      | true =>
          -- the directory was there before the file was in it
          have hthere := hopen p hp hholds
          rw [node?, if_neg hnil] at hthere
          rw [hthere, Bool.true_or, if_pos rfl]
          split
          · rename_i node hnode
            rw [hnode] at hthere
            exact hthere
          · rfl

/-! ### Writes -/

/-- What a write that is not refused finds, and what it leaves. -/
theorem write_cases (h : tree.write path contents = .ok tree') :
    ∃ directory part, refusal? path = none ∧ Place.parts path = (Place.parts path).dropLast ++ [part] ∧
      tree.descend (.start path) (Place.parts path).dropLast = .ok directory ∧
      tree.node? directory = some .directory ∧ isDots part = false ∧ path.endsWith "/" = false ∧
      part.utf8ByteSize ≤ maxPartLength ∧ tree.node? (directory.down part) ≠ some .directory ∧
      tree' = tree.put (directory.down part) contents := by
  unfold write at h
  split at h
  · cases h
  · rename_i hrefusal
    dsimp only at h
    split at h
    · cases h
    · rename_i directory hdescend
      split at h
      · cases h
      · cases h
      · cases h
      · rename_i part hdirectory hpart
        split at h
        · cases h
        · rename_i hplain
          split at h
          · cases h
          · rename_i hlength
            obtain ⟨hdots, hslash⟩ := not_or.mp hplain
            split at h
            · cases h
            · rename_i hfree
              cases h
              exact ⟨directory, part, hrefusal, (List.dropLast_append_getLast? part hpart).symm,
                hdescend, hdirectory, Bool.eq_false_iff.mpr hdots, Bool.eq_false_iff.mpr hslash,
                Nat.le_of_not_lt hlength, hfree, rfl⟩

/-- **A write changes one place.**  Where its path leads stands a file with the contents, and every
other place is as it was.  Read by the same path, the contents come back. -/
theorem write_eq_ok (h : tree.write path contents = .ok tree') :
    (∀ place, tree'.node? place =
      if place = .ofPath path then some (.file contents) else tree.node? place) ∧
    tree'.read path = .ok contents := by
  obtain ⟨directory, part, hrefusal, hparts, hdescend, hdirectory, hdots, hslash, hlength, hfree,
    rfl⟩ := write_cases h
  obtain ⟨hplace, hopen⟩ := openTo_of_descend (openTo_of_nil rfl) hdescend
  have hend : Place.ofPath path = directory.down part := by
    rw [Place.ofPath, hparts, List.foldl_append, ← hplace]
    rfl
  have hnames : (directory.down part).names ≠ [] := by
    rw [Place.down_of_not_isDots hdots]
    exact List.append_ne_nil_of_right_ne_nil _ (List.cons_ne_nil part [])
  have hnode := node?_put (hopen.down hdirectory part) hnames contents
  refine ⟨fun place => ?_, ?_⟩
  · rw [hend]
    exact hnode place
  · have hfile : (tree.put (directory.down part) contents).node? (directory.down part) =
        some (.file contents) := by rw [hnode, if_pos rfl]
    -- the parts in front of the last lead where they led, now that the file is there
    have hkept : ∀ p, tree.node? p = some .directory →
        (tree.put (directory.down part) contents).node? p = some .directory := by
      intro p hp
      have hne : p ≠ directory.down part := fun heq => hfree (heq ▸ hp)
      rw [hnode, if_neg hne]
      exact hp
    have hthere : ∀ p, tree.node? p ≠ none →
        (tree.put (directory.down part) contents).node? p ≠ none := by
      intro p hp
      rw [hnode]
      split
      · nofun
      · exact hp
    have hdown : (tree.put (directory.down part) contents).descend (.start path)
        (Place.parts path) = .ok (directory.down part) := by
      rw [hparts, descend_append (descend_mono hkept hthere hdescend),
        descend_cons_of (hkept _ hdirectory) hlength (by rw [hfile]; nofun)]
      rfl
    rw [read, hrefusal]
    dsimp only
    rw [hdown]
    dsimp only
    rw [hfile]
    exact if_neg (by rw [hslash]; nofun)

end FileTree

end Chiptune
