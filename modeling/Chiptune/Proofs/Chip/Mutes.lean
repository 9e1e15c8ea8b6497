import Chiptune.Proofs.Device.Calls

/-!
# Chip — Mutes

Mutes decide which voices a reading adds up, and nothing else: no step of the chip looks at them
(`write_withMutes`, `advance_withMutes`).  So what is heard along a record is one row of attenuation
levels for each stretch of cycles (`levelsAlong`), the same for every set of mutes, and the mutes
make samples of it at the end (`heard_eq_mix`).

The mix of a chip on which just the voices of a set can be heard is the sum over that set
(`mix_of_audible`).
-/

namespace Chiptune

instance : Fintype Voice := ⟨⟨Voice.all, by decide⟩, Voice.mem_all⟩

/-- The mix, voice by voice. -/
theorem mix_eq_sum (mutes : PerVoice Bool) (levels : PerVoice Nat) :
    mix mutes levels =
      (Voice.all.map fun v => contribution (mutes.get v) (levels.get v)).sum := by
  simp only [mix, Voice.all, List.map_cons, List.map_nil, List.sum_cons, List.sum_nil,
    PerVoice.get, Nat.add_zero, Nat.add_assoc]

/-- A voice that is not muted adds its amplitude while it is high, and any other voice nothing. -/
theorem contribution_ite (muted phase : Bool) (volume : Nat) :
    contribution muted (if phase then volume else silentLevel) =
      if muted = false ∧ phase = true then amplitude volume else 0 := by
  unfold contribution
  cases muted <;> cases phase <;> simp [amplitude_silentLevel]

namespace Chip

/-- The chip with other mutes. -/
def withMutes (c : Chip) (mutes : PerVoice Bool) : Chip :=
  { c with mutes := mutes }

/-! ### Steps do not look at the mutes -/

theorem writeTo_withMutes (c : Chip) (m : PerVoice Bool) (t : Target) (w : Width) (d : Nat) :
    (c.withMutes m).writeTo t w d = (c.writeTo t w d).withMutes m := by
  unfold writeTo
  cases t.voice <;> rfl

theorem write_withMutes (c : Chip) (m : PerVoice Bool) (byte : UInt8) :
    (c.withMutes m).write byte = (c.write byte).withMutes m := by
  unfold write
  cases BusWrite.decode byte with
  | latch target data => exact writeTo_withMutes { c with latch := target } m target .narrow data
  | data data => exact writeTo_withMutes c m c.latch .wide data

theorem cycle_withMutes (c : Chip) (m : PerVoice Bool) :
    (c.withMutes m).cycle = c.cycle.withMutes m := by
  unfold cycle
  by_cases h : c.divider ≤ 1
  · rw [if_pos h]
    exact if_pos h
  · rw [if_neg h]
    exact if_neg h

theorem advance_withMutes (c : Chip) (m : PerVoice Bool) (n : Nat) :
    (c.withMutes m).advance n = (c.advance n).withMutes m := by
  induction n generalizing c with
  | zero => rfl
  | succ n ih => rw [advance_succ, cycle_withMutes, ih, advance_succ]

theorem mutes_write (c : Chip) (byte : UInt8) : (c.write byte).mutes = c.mutes := by
  have h : c.write byte = (c.write byte).withMutes c.mutes := write_withMutes c c.mutes byte
  rw [h]
  rfl

theorem mutes_advance (c : Chip) (n : Nat) : (c.advance n).mutes = c.mutes := by
  have h : c.advance n = (c.advance n).withMutes c.mutes := advance_withMutes c c.mutes n
  rw [h]
  rfl

/-! ### Levels along a record -/

/-- The levels of the voices along a record, after each stretch of cycles. -/
def levelsAlong (c : Chip) : List DeviceEvent → List (PerVoice Nat)
  | [] => []
  | .write byte :: rest => (c.write byte).levelsAlong rest
  | .advance n :: rest => (c.advance n).levels :: (c.advance n).levelsAlong rest

theorem levelsAlong_withMutes (c : Chip) (m : PerVoice Bool) (events : List DeviceEvent) :
    (c.withMutes m).levelsAlong events = c.levelsAlong events := by
  induction events generalizing c with
  | nil => rfl
  | cons e rest ih =>
      cases e with
      | write byte => rw [levelsAlong, levelsAlong, write_withMutes, ih]
      | advance n =>
          rw [levelsAlong, levelsAlong, advance_withMutes, ih]
          rfl

/-- What is heard of the chip is the mix of the levels. -/
theorem heard_eq_mix (c : Chip) (events : List DeviceEvent) :
    DeviceEvent.heard c events = (c.levelsAlong events).map fun l => (mix c.mutes l : Int) := by
  induction events generalizing c with
  | nil => rfl
  | cons e rest ih =>
      cases e with
      | write byte =>
          have hrest := ih (c.write byte)
          rw [mutes_write] at hrest
          exact hrest
      | advance n =>
          have hrest := ih (c.advance n)
          have hsample : (c.advance n).sample = mix c.mutes (c.advance n).levels := by
            rw [sample, mutes_advance]
          rw [mutes_advance] at hrest
          rw [DeviceEvent.heard, levelsAlong, List.map_cons, ← hsample, ← hrest]
          rfl

/-! ### The voices that can be heard -/

/-- Just the voices of a set can be heard: those outside it are the muted ones. -/
def Audible (c : Chip) (voices : Finset Voice) : Prop :=
  ∀ v : Voice, c.isMuted v.index = true ↔ v ∉ voices

instance (c : Chip) (voices : Finset Voice) : Decidable (c.Audible voices) :=
  inferInstanceAs (Decidable (∀ v : Voice, c.isMuted v.index = true ↔ v ∉ voices))

theorem isMuted_index (c : Chip) (v : Voice) : c.isMuted v.index = c.mutes.get v := by
  rw [isMuted, Voice.ofIndex?_index]

/-- The mix is the sum over the voices that can be heard. -/
theorem mix_of_audible {c : Chip} {voices : Finset Voice} (h : c.Audible voices)
    (levels : PerVoice Nat) : mix c.mutes levels = ∑ v ∈ voices, amplitude (levels.get v) := by
  have hterm : ∀ v : Voice, contribution (c.mutes.get v) (levels.get v) =
      if v ∈ voices then amplitude (levels.get v) else 0 := by
    intro v
    have hv := h v
    rw [isMuted_index] at hv
    by_cases hmem : v ∈ voices
    · have hmute : c.mutes.get v = false := Bool.eq_false_iff.mpr fun hm => hv.mp hm hmem
      rw [if_pos hmem, hmute]
      rfl
    · rw [if_neg hmem, hv.mpr hmem]
      rfl
  calc mix c.mutes levels
      = ∑ v : Voice, contribution (c.mutes.get v) (levels.get v) := mix_eq_sum c.mutes levels
    _ = ∑ v : Voice, if v ∈ voices then amplitude (levels.get v) else 0 :=
        Finset.sum_congr rfl fun v _ => hterm v
    _ = ∑ v ∈ voices, amplitude (levels.get v) := Finset.sum_ite_mem_eq voices _

/-! ### Mute calls -/

/-- Calls of the host that mute or unmute voices by number, first to last. -/
def muteAll (c : Chip) (calls : List (Nat × Bool)) : Chip :=
  calls.foldl (fun c call => c.setMute call.1 call.2) c

theorem get_setMute_self (c : Chip) (v : Voice) (muted : Bool) :
    (c.setMute v.index muted).mutes.get v = muted := by
  rw [setMute, Voice.ofIndex?_index]
  exact PerVoice.get_set_self c.mutes v muted

theorem get_setMute_of_ne (c : Chip) {index : Nat} {v : Voice} (h : index ≠ v.index)
    (muted : Bool) : (c.setMute index muted).mutes.get v = c.mutes.get v := by
  unfold setMute
  split
  · rename_i w hw
    have hne : v ≠ w := fun hvw => h (hvw ▸ Voice.ofIndex?_eq_some_iff.mp hw)
    exact PerVoice.get_set_of_ne c.mutes hne muted
  · rfl

/-- A voice no call names keeps its mute. -/
theorem get_muteAll_of_not_mem (c : Chip) {calls : List (Nat × Bool)} {v : Voice}
    (h : ∀ muted, (v.index, muted) ∉ calls) : (c.muteAll calls).mutes.get v = c.mutes.get v := by
  induction calls generalizing c with
  | nil => rfl
  | cons call rest ih =>
      have hne : call.1 ≠ v.index := fun heq =>
        h call.2 (List.mem_cons.mpr (.inl (Prod.ext heq.symm rfl)))
      refine (ih _ fun muted hmem => h muted (List.mem_cons_of_mem _ hmem)).trans ?_
      exact c.get_setMute_of_ne hne call.2

/-- A voice that some calls name, all with the same mute, has that mute. -/
theorem get_muteAll_of_mem (c : Chip) {calls : List (Nat × Bool)} {v : Voice} {muted : Bool}
    (hmem : (v.index, muted) ∈ calls) (hagree : (v.index, !muted) ∉ calls) :
    (c.muteAll calls).mutes.get v = muted := by
  induction calls generalizing c with
  | nil => cases hmem
  | cons call rest ih =>
      have hagree' : (v.index, !muted) ∉ rest := fun h => hagree (List.mem_cons_of_mem _ h)
      -- the last call that names the voice counts
      by_cases hrest : (v.index, muted) ∈ rest
      · exact ih _ hrest hagree'
      · obtain rfl : (v.index, muted) = call := (List.mem_cons.mp hmem).resolve_right hrest
        have hnone : ∀ b, (v.index, b) ∉ rest := by
          intro b hb
          by_cases hbm : b = muted
          · exact hrest (hbm ▸ hb)
          · exact hagree' (Bool.eq_not.mpr hbm ▸ hb)
        refine (get_muteAll_of_not_mem _ hnone).trans ?_
        exact c.get_setMute_self v muted

/-- The order and the repetition of mute calls do not matter, if none contradicts another. -/
theorem mutes_muteAll_eq {c c' : Chip} {calls calls' : List (Nat × Bool)}
    (hmutes : c'.mutes = c.mutes) (hcalls : ∀ call, call ∈ calls' ↔ call ∈ calls)
    (hagree : ∀ index muted, (index, muted) ∈ calls → (index, !muted) ∉ calls) :
    (c'.muteAll calls').mutes = (c.muteAll calls).mutes := by
  refine PerVoice.ext_get fun v => ?_
  by_cases h : ∃ muted, (v.index, muted) ∈ calls
  · obtain ⟨muted, hmem⟩ := h
    have hnot := hagree v.index muted hmem
    rw [c.get_muteAll_of_mem hmem hnot]
    exact c'.get_muteAll_of_mem ((hcalls _).mpr hmem) fun h => hnot ((hcalls _).mp h)
  · have hnone : ∀ muted, (v.index, muted) ∉ calls := fun muted hmem => h ⟨muted, hmem⟩
    rw [c.get_muteAll_of_not_mem hnone, ← hmutes]
    exact c'.get_muteAll_of_not_mem fun muted hmem => hnone muted ((hcalls _).mp hmem)

end Chip

end Chiptune
