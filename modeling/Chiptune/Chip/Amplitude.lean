import Chiptune.Chip.Voice

/-!
# Chip — Amplitude

A voice puts out an attenuation level from 0 (loudest) to 15 (silent), and every level but the
last stands for an amplitude two decibels below the one before it (`amplitude`).  The mixed output
is the plain sum over the voices the host has not muted (`mix`): the loudest mix of all four is
32764, so a sum needs no clipping to fit sixteen signed bits (`mix_le`).
-/

namespace Chiptune

/-- The attenuation level that silences a voice. -/
def silentLevel : Nat := 15

/-- The amplitudes of the sixteen attenuation levels, loudest first. -/
def amplitudes : Vector Nat 16 :=
  #v[0x1FFF, 0x196A, 0x1430, 0x1009, 0x0CBC, 0x0A1E, 0x0809, 0x0662,
    0x0512, 0x0407, 0x0333, 0x028A, 0x0204, 0x019A, 0x0146, 0x0000]

/-- The amplitude of the attenuation level in the low four bits of `level`. -/
def amplitude (level : Nat) : Nat :=
  amplitudes.get ⟨level % 16, Nat.mod_lt level (by decide)⟩

/-- What a voice at `level` adds to the mix. -/
def contribution (muted : Bool) (level : Nat) : Nat :=
  if muted then 0 else amplitude level

/-- The sum of the amplitudes of the voices that are not muted. -/
def mix (mutes : PerVoice Bool) (levels : PerVoice Nat) : Nat :=
  contribution mutes.tone0 levels.tone0 + contribution mutes.tone1 levels.tone1 +
    contribution mutes.tone2 levels.tone2 + contribution mutes.noise levels.noise

theorem amplitude_le (level : Nat) : amplitude level ≤ 0x1FFF := by
  have h : ∀ i : Fin 16, amplitudes[i.1] ≤ 0x1FFF := by decide
  exact h ⟨level % 16, Nat.mod_lt level (by decide)⟩

theorem amplitude_silentLevel : amplitude silentLevel = 0 := rfl

theorem contribution_le (muted : Bool) (level : Nat) : contribution muted level ≤ 0x1FFF := by
  cases muted
  · exact amplitude_le level
  · exact Nat.zero_le _

/-- Four loudest voices make 32764, the largest mix. -/
theorem mix_le (mutes : PerVoice Bool) (levels : PerVoice Nat) : mix mutes levels ≤ 32764 := by
  have h0 := contribution_le mutes.tone0 levels.tone0
  have h1 := contribution_le mutes.tone1 levels.tone1
  have h2 := contribution_le mutes.tone2 levels.tone2
  have h3 := contribution_le mutes.noise levels.noise
  unfold mix
  omega

end Chiptune
