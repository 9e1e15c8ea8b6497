/-!
# Chip — Voices

The chip has four voices: three square-wave tones and one noise generator, numbered 0 to 3 in the
order of the write protocol.  `PerVoice` holds one value for each of them.
-/

namespace Chiptune

/-- A sound channel of the chip. -/
inductive Voice where
  | tone0
  | tone1
  | tone2
  | noise
  deriving DecidableEq, Inhabited

namespace Voice

/-- The number of a voice in the write protocol. -/
def index : Voice → Nat
  | tone0 => 0
  | tone1 => 1
  | tone2 => 2
  | noise => 3

/-- The voice with a given number. -/
def ofIndex? : Nat → Option Voice
  | 0 => some tone0
  | 1 => some tone1
  | 2 => some tone2
  | 3 => some noise
  | _ => none

/-- The voice named by the low two bits of `n`.  The other bits are masked out here, so every voice
has a number below four. -/
def ofBits (n : Nat) : Voice :=
  match n % 4 with
  | 0 => tone0
  | 1 => tone1
  | 2 => tone2
  | _ => noise

/-- The four voices in protocol order. -/
def all : List Voice :=
  [tone0, tone1, tone2, noise]

@[simp] theorem ofIndex?_index (v : Voice) : ofIndex? v.index = some v := by
  cases v <;> rfl

theorem index_lt (v : Voice) : v.index < 4 := by
  cases v <;> decide

theorem ofIndex?_eq_some_iff {n : Nat} {v : Voice} : ofIndex? n = some v ↔ n = v.index := by
  constructor
  · intro h
    unfold ofIndex? at h
    split at h <;> cases h <;> rfl
  · rintro rfl
    exact ofIndex?_index v

theorem mem_all (v : Voice) : v ∈ all := by
  cases v <;> decide

end Voice

/-- One value for each voice. -/
structure PerVoice (α : Type) where
  tone0 : α
  tone1 : α
  tone2 : α
  noise : α
  deriving DecidableEq

namespace PerVoice

variable {α : Type}

/-- The same value for every voice. -/
def const (a : α) : PerVoice α :=
  ⟨a, a, a, a⟩

/-- The value of a voice. -/
def get (p : PerVoice α) : Voice → α
  | .tone0 => p.tone0
  | .tone1 => p.tone1
  | .tone2 => p.tone2
  | .noise => p.noise

/-- The collection with the value of one voice replaced. -/
def set (p : PerVoice α) (v : Voice) (a : α) : PerVoice α :=
  match v with
  | .tone0 => { p with tone0 := a }
  | .tone1 => { p with tone1 := a }
  | .tone2 => { p with tone2 := a }
  | .noise => { p with noise := a }

/-- The values in protocol order. -/
def toList (p : PerVoice α) : List α :=
  [p.tone0, p.tone1, p.tone2, p.noise]

@[simp] theorem get_set_self (p : PerVoice α) (v : Voice) (a : α) : (p.set v a).get v = a := by
  cases v <;> rfl

theorem get_set_of_ne (p : PerVoice α) {v w : Voice} (h : w ≠ v) (a : α) :
    (p.set v a).get w = p.get w := by
  cases v <;> cases w <;> first | rfl | exact absurd rfl h

/-- Two collections with the same values are the same. -/
theorem ext_get {p q : PerVoice α} (h : ∀ v, p.get v = q.get v) : p = q := by
  cases p
  cases q
  simp only [mk.injEq]
  exact ⟨h .tone0, h .tone1, h .tone2, h .noise⟩

end PerVoice

end Chiptune
