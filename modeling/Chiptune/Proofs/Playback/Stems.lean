import Chiptune.Proofs.Chip.Mutes
import Chiptune.Proofs.Playback.Progress

/-!
# Playback — Stems

A song rendered with some voices muted is a stem.  Stems of disjoint sets of voices add up.

* `renderOn_eq_mixed`: a render is the plan of the song with the levels along it, which are the same
  for every chip, mixed by the mutes of that chip.
* `renderOn_addUp`: two stems add up to the stem of both sets, the four solo stems to the render of
  all voices; and a render does not depend on the order and the repetition of the mute calls before.
-/

namespace Chiptune

namespace Rendering

/-- A rendering that is the sum of some others: all of them ran alike, and no sample leaves the
range of a mix. -/
structure IsSum (whole : Rendering) (parts : List Rendering) : Prop where
  ranAlike : ∀ p ∈ parts,
    p.samples.size = whole.samples.size ∧ p.cyclesPerSample = whole.cyclesPerSample ∧
      p.chipCycles = whole.chipCycles ∧ p.executed = whole.executed ∧
      p.endedByMarker = whole.endedByMarker
  sample_eq : ∀ k (h : k < whole.samples.size),
    whole.samples[k] = (parts.map fun p => p.samples.getD k 0).sum
  range : ∀ r ∈ whole :: parts, ∀ x ∈ r.samples, 0 ≤ x ∧ x ≤ 32764

/-- Some results add up to another: either all are the same failure, or all are renderings, and the
one is the sum of the others. -/
def AddUp (parts : List (Except Error Rendering)) (whole : Except Error Rendering) : Prop :=
  (∃ e, whole = .error e ∧ ∀ p ∈ parts, p = .error e) ∨
    ∃ r rs, whole = .ok r ∧ parts = rs.map .ok ∧ r.IsSum rs

/-! ### Rows of levels, mixed -/

/-- The rendering with the samples that some mutes make of rows of levels. -/
def mixed (r : Rendering) (levels : List (PerVoice Nat)) (mutes : PerVoice Bool) : Rendering :=
  { r with samples := (levels.map fun l => (mix mutes l : Int)).toArray }

theorem getD_samples_mixed (r : Rendering) (levels : List (PerVoice Nat)) (mutes : PerVoice Bool)
    {k : Nat} (hk : k < levels.length) :
    (r.mixed levels mutes).samples.getD k 0 = (mix mutes levels[k] : Int) := by
  have hsize : k < (r.mixed levels mutes).samples.size := by
    rw [mixed, List.size_toArray, List.length_map]
    exact hk
  rw [Array.getD, dif_pos hsize]
  simp only [mixed, Array.getInternal_eq_getElem, List.getElem_toArray, List.getElem_map]

theorem range_mixed (r : Rendering) (levels : List (PerVoice Nat)) (mutes : PerVoice Bool) {x : Int}
    (hx : x ∈ (r.mixed levels mutes).samples) : 0 ≤ x ∧ x ≤ 32764 := by
  obtain ⟨l, -, rfl⟩ := List.mem_map.mp (List.mem_toArray.mp hx)
  exact ⟨Int.natCast_nonneg _, Int.ofNat_le.mpr (mix_le mutes l)⟩

/-- Mutes whose mixes add up make renderings that do. -/
theorem isSum_mixed (r : Rendering) (levels : List (PerVoice Nat)) {mutes : PerVoice Bool}
    {parts : List (PerVoice Bool)} (h : ∀ l, mix mutes l = (parts.map fun m => mix m l).sum) :
    (r.mixed levels mutes).IsSum (parts.map (r.mixed levels)) where
  ranAlike p hp := by
    obtain ⟨m, -, rfl⟩ := List.mem_map.mp hp
    simp only [mixed, List.size_toArray, List.length_map, and_self]
  sample_eq k hk := by
    have hlevels : k < levels.length := by
      rwa [mixed, List.size_toArray, List.length_map] at hk
    have hwhole : (r.mixed levels mutes).samples[k] = (mix mutes levels[k] : Int) := by
      simp only [mixed, List.getElem_toArray, List.getElem_map]
    have hparts : (parts.map (r.mixed levels)).map (fun p => p.samples.getD k 0) =
        (parts.map fun m => mix m levels[k]).map Nat.cast := by
      rw [List.map_map, List.map_map]
      exact List.map_congr_left fun m _ => r.getD_samples_mixed levels m hlevels
    rw [hwhole, hparts, h, Nat.cast_list_sum]
  range q hq x hx := by
    rcases List.mem_cons.mp hq with rfl | hq
    · exact r.range_mixed levels mutes hx
    · obtain ⟨m, -, rfl⟩ := List.mem_map.mp hq
      exact r.range_mixed levels m hx

end Rendering

open Rendering (AddUp)

/-- The result of a run that goes by the plan and hears rows of levels, mixed. -/
def Plan.mixed (plan : Plan) (cyclesPerSample : Nat) (levels : List (PerVoice Nat))
    (mutes : PerVoice Bool) : Except Error Rendering :=
  plan.result cyclesPerSample (levels.map fun l => (mix mutes l : Int))

/-- Mutes whose mixes add up make results that do, whatever the plan. -/
theorem Plan.addUp_mixed (plan : Plan) (cyclesPerSample : Nat) (levels : List (PerVoice Nat))
    {mutes : PerVoice Bool} {parts : List (PerVoice Bool)}
    (h : ∀ l, mix mutes l = (parts.map fun m => mix m l).sum) :
    AddUp (parts.map (plan.mixed cyclesPerSample levels))
      (plan.mixed cyclesPerSample levels mutes) := by
  -- both ways to finish give a rendering that is the same for all mutes but for its samples
  have hok : ∀ r : Rendering, (∀ m, plan.mixed cyclesPerSample levels m = .ok (r.mixed levels m)) →
      AddUp (parts.map (plan.mixed cyclesPerSample levels))
        (plan.mixed cyclesPerSample levels mutes) := by
    intro r hr
    refine .inr ⟨r.mixed levels mutes, parts.map (r.mixed levels), hr mutes, ?_,
      r.isSum_mixed levels h⟩
    rw [List.map_map]
    exact List.map_congr_left fun m _ => hr m
  cases hstop : plan.stop with
  | complete =>
      refine hok ⟨#[], cyclesPerSample, plan.cycles, plan.walked.length, false⟩ fun m => ?_
      rw [mixed, result, hstop]
      rfl
  | marker =>
      refine hok ⟨#[], cyclesPerSample, plan.cycles, plan.walked.length, true⟩ fun m => ?_
      rw [mixed, result, hstop]
      rfl
  | fault e =>
      have herror : ∀ m, plan.mixed cyclesPerSample levels m = .error e := by
        intro m
        rw [mixed, result, hstop]
      refine .inl ⟨e, herror mutes, fun p hp => ?_⟩
      obtain ⟨m, -, rfl⟩ := List.mem_map.mp hp
      exact herror m

namespace Song

/-- A render is the plan of the song with the levels of a new chip, mixed by the mutes of the chip
at hand. -/
theorem renderOn_eq_mixed (song : Song) (c : Chip) :
    song.renderOn c = song.plan.mixed (Chiptune.cyclesPerSample song.header.clock)
      (Chip.powerOn.levelsAlong song.plan.events) c.mutes := by
  have hheard : DeviceEvent.heard c.reset song.plan.events =
      (Chip.powerOn.levelsAlong song.plan.events).map fun l => (mix c.mutes l : Int) := by
    rw [Chip.heard_eq_mix, ← Chip.levelsAlong_withMutes Chip.powerOn c.mutes]
    rfl
  refine (Player.result_run_start song.image song.header c.reset).trans ?_
  exact congrArg (song.plan.result _) hheard

theorem renderOn_eq_of_mutes_eq (song : Song) {c c' : Chip} (h : c'.mutes = c.mutes) :
    song.renderOn c' = song.renderOn c := by
  rw [renderOn_eq_mixed, renderOn_eq_mixed, h]

/-- Renders add up if the mixes of their chips do. -/
theorem addUp_renderOn (song : Song) {c : Chip} {parts : List Chip}
    (h : ∀ l, mix c.mutes l = (parts.map fun p => mix p.mutes l).sum) :
    AddUp (parts.map song.renderOn) (song.renderOn c) := by
  have hparts : parts.map (song.renderOn ·) = (parts.map Chip.mutes).map
      (song.plan.mixed (Chiptune.cyclesPerSample song.header.clock)
        (Chip.powerOn.levelsAlong song.plan.events)) := by
    rw [List.map_map]
    exact List.map_congr_left fun p _ => song.renderOn_eq_mixed p
  rw [hparts, renderOn_eq_mixed]
  refine song.plan.addUp_mixed _ _ fun l => ?_
  rw [h l, List.map_map]
  rfl

/-- **Stems add up.**  Render a song on chips on which just the voices of one set can be heard, just
those of another, disjoint set, and just those of both: either all three renders fail alike, or the
third is the sum of the first two.  The render of all voices is the sum of the four solo renders.
What the chips went through before does not matter, and of the mute calls neither the order nor the
repetition, as long as no call takes another one back. -/
theorem renderOn_addUp (song : Song) :
    (∀ (A B : Finset Voice) (cA cB cAB : Chip), Disjoint A B →
      cA.Audible A → cB.Audible B → cAB.Audible (A ∪ B) →
      AddUp [song.renderOn cA, song.renderOn cB] (song.renderOn cAB)) ∧
    (∀ (solo : Voice → Chip) (c : Chip), (∀ v, (solo v).Audible {v}) → c.Audible Finset.univ →
      AddUp (Voice.all.map fun v => song.renderOn (solo v)) (song.renderOn c)) ∧
    ∀ (c c' : Chip) (calls calls' : List (Nat × Bool)), c'.mutes = c.mutes →
      (∀ call, call ∈ calls' ↔ call ∈ calls) →
      (∀ index muted, (index, muted) ∈ calls → (index, !muted) ∉ calls) →
      song.renderOn (c'.muteAll calls') = song.renderOn (c.muteAll calls) := by
  refine ⟨fun A B cA cB cAB hdisjoint hA hB hAB => ?_, fun solo c hsolo hc => ?_,
    fun c c' calls calls' hmutes hcalls hagree => ?_⟩
  · have hmix : ∀ l, mix cAB.mutes l = ([cA, cB].map fun p => mix p.mutes l).sum := fun l =>
      calc mix cAB.mutes l
          = ∑ v ∈ A ∪ B, amplitude (l.get v) := Chip.mix_of_audible hAB l
        _ = ∑ v ∈ A, amplitude (l.get v) + ∑ v ∈ B, amplitude (l.get v) :=
            Finset.sum_union hdisjoint
        _ = mix cA.mutes l + mix cB.mutes l := by
            rw [Chip.mix_of_audible hA, Chip.mix_of_audible hB]
    exact song.addUp_renderOn hmix
  · have hmix : ∀ l, mix c.mutes l = ((Voice.all.map solo).map fun p => mix p.mutes l).sum := by
      intro l
      have hone : ∀ v, mix (solo v).mutes l = amplitude (l.get v) := by
        intro v
        rw [Chip.mix_of_audible (hsolo v), Finset.sum_singleton]
      rw [Chip.mix_of_audible hc, List.map_map]
      exact congrArg List.sum (List.map_congr_left fun v _ => (hone v).symm)
    have hparts := song.addUp_renderOn hmix
    rwa [List.map_map] at hparts
  · exact song.renderOn_eq_of_mutes_eq (Chip.mutes_muteAll_eq hmutes hcalls hagree)

/-- A sample of tone 0 at its loudest, with the chips muted call by call. -/
theorem renderOn_addUp_tone0_noise :
    let image : ByteArray := ⟨#[0x50, 0x90, 0x70, 0x66]⟩
    let song : Song :=
      ⟨{ Header.fields image with clock := 3579545, totalSamples := 2, dataOffset := 0 }, image⟩
    let tone0 := Chip.powerOn.muteAll [(1, true), (2, true), (3, true)]
    let noise := Chip.powerOn.muteAll [(0, true), (1, true), (2, true)]
    let both := Chip.powerOn.muteAll [(2, true), (1, true), (2, true)]
    let solo (v : Voice) := Chip.powerOn.withMutes ((PerVoice.const true).set v false)
    AddUp [song.renderOn tone0, song.renderOn noise] (song.renderOn both) ∧
      AddUp (Voice.all.map fun v => song.renderOn (solo v)) (song.renderOn Chip.powerOn) ∧
      song.renderOn both = song.renderOn (Chip.powerOn.muteAll [(1, true), (2, true)]) := by
  intro image song tone0 noise both solo
  have hdisjoint : Disjoint ({.tone0} : Finset Voice) {.noise} := by decide
  have htone0 : tone0.Audible {.tone0} := by decide
  have hnoise : noise.Audible {.noise} := by decide
  have hboth : both.Audible ({.tone0} ∪ {.noise}) := by decide
  have hsolo : ∀ v, (solo v).Audible {v} := by decide
  have hall : Chip.powerOn.Audible Finset.univ := by decide
  obtain ⟨hsum, hsolos, hcalls⟩ := song.renderOn_addUp
  refine ⟨hsum _ _ _ _ _ hdisjoint htone0 hnoise hboth, hsolos solo _ hsolo hall,
    hcalls _ _ _ _ rfl (fun call => ?_) fun index muted hmem hback => ?_⟩
  · simp only [List.mem_cons, List.not_mem_nil]
    tauto
  · simp only [List.mem_cons, Prod.mk.injEq, List.not_mem_nil] at hmem hback
    cases muted
    · tauto
    · tauto

end Song

end Chiptune
