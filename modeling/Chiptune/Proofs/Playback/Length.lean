import Chiptune.Proofs.Playback.Progress

/-!
# Playback — Length

The declared length cuts a song and does nothing else.  Two players are set up alike but for the
length, and each does its first run; the longer one produces so many samples.

* If that is enough for the shorter length, the run with the shorter length is complete, and its
  samples are the first ones of the longer run (`planFrom_of_le_readings`).
* If not, both runs do the same and end alike; only a failure for want of commands names the other
  length (`planFrom_of_readings_lt`, `Error.expecting`).

`run_start_eq_cut` puts both together.
-/

namespace Chiptune

open DeviceEvent (readings readings_append readings_rendering rendering_append)

/-- A failure of a player that expected another number of samples. -/
def Error.expecting (total : Nat) : Error → Error
  | .unexpectedEnd offset rendered _ => .unexpectedEnd offset rendered total
  | e => e

/-- A stop of a player that expected another number of samples. -/
def Stop.expecting (total : Nat) : Stop → Stop
  | .fault e => .fault (e.expecting total)
  | stop => stop

/-- The first readings along a record are those along its beginning. -/
theorem DeviceEvent.heard_of_prefix {σ : Type} [SoundDevice σ] (device : σ)
    {first whole : List DeviceEvent} (h : first <+: whole) :
    heard device first = (heard device whole).take (readings first) := by
  obtain ⟨rest, rfl⟩ := h
  rw [heard_append, ← length_heard device first, List.take_left]

/-! ### What stands at the end of a score -/

theorem Instruction.expecting_of_decode {data : ByteArray} {offset : Nat} {e : Error} (total : Nat)
    (hlt : offset < data.size) (h : decode data offset = .error e) : e.expecting total = e := by
  rcases (decode_eq_error_iff hlt).mp h with ⟨-, rfl⟩ | ⟨-, rfl⟩ <;> rfl

namespace Score

/-- The length is expected nowhere but in a failure for want of commands. -/
theorem fault_expecting (image : ByteArray) (start rendered expected total : Nat) :
    ((read image start).ending.fault rendered expected).expecting total =
      (read image start).ending.fault rendered total := by
  obtain ⟨stop, -, ⟨-, hending⟩ | ⟨e, hlt, hdec, hending⟩⟩ := reads_read image start
  · rw [hending]
    rfl
  · rw [hending]
    exact Instruction.expecting_of_decode total hlt hdec

/-! ### Plans for two lengths -/

section

variable {cycles short long rendered : Nat} {ending : ScoreEnd} {is : List Instruction}

/-- A plan that stays below the shorter length is the plan for both. -/
theorem planFrom_of_readings_lt (hle : short ≤ long)
    (hending : ∀ n, (ending.fault n long).expecting short = ending.fault n short)
    (h : rendered + readings (planFrom cycles long ending rendered is).events < short) :
    planFrom cycles short ending rendered is =
      let plan := planFrom cycles long ending rendered is
      { plan with stop := plan.stop.expecting short } := by
  induction is generalizing rendered with
  | nil =>
      rw [planFrom, if_neg (by omega), ← hending, planFrom, if_neg (by omega)]
      rfl
  | cons i rest ih =>
      have hshort : ¬ short ≤ rendered := by omega
      have hlong : ¬ long ≤ rendered := by omega
      cases hc : i.command with
      | write byte =>
          rw [planFrom_write hlong hc] at h ⊢
          rw [planFrom_write hshort hc, ih h]
          rfl
      | wait samples =>
          rw [planFrom_wait hlong hc] at h ⊢
          simp only [Plan.after, readings_append, readings_rendering, ← Nat.add_assoc] at h
          -- a wait that is cut at the longer length would have reached the shorter one
          have hwhole : min samples (long - rendered) = samples := by omega
          have hwhole' : min samples (short - rendered) = samples := by omega
          rw [hwhole] at h ⊢
          rw [planFrom_wait hshort hc, hwhole', ih h]
          rfl
      | stop =>
          rw [planFrom_stop hshort hc, planFrom_stop hlong hc]
          rfl

/-- A plan that reaches the shorter length begins with the plan for that length, which is complete
there. -/
theorem planFrom_of_le_readings (hle : short ≤ long) (hrendered : rendered ≤ short)
    (h : short ≤ rendered + readings (planFrom cycles long ending rendered is).events) :
    let plan := planFrom cycles short ending rendered is
    plan.stop = .complete ∧ plan.events <+: (planFrom cycles long ending rendered is).events ∧
      rendered + readings plan.events = short := by
  induction is generalizing rendered with
  | nil =>
      have hshort : short ≤ rendered := h
      rw [planFrom_of_le cycles ending hshort]
      exact ⟨rfl, List.nil_prefix, Nat.le_antisymm hrendered hshort⟩
  | cons i rest ih =>
      by_cases hshort : short ≤ rendered
      · rw [planFrom_of_le cycles ending hshort]
        exact ⟨rfl, List.nil_prefix, Nat.le_antisymm hrendered hshort⟩
      · have hlong : ¬ long ≤ rendered := by omega
        cases hc : i.command with
        | write byte =>
            rw [planFrom_write hlong hc] at h ⊢
            rw [planFrom_write hshort hc]
            obtain ⟨hstop, hevents, hsize⟩ := ih hrendered h
            exact ⟨hstop, (List.prefix_cons_inj _).mpr hevents, hsize⟩
        | wait samples =>
            rw [planFrom_wait hlong hc] at h ⊢
            rw [planFrom_wait hshort hc]
            simp only [Plan.after, readings_append, readings_rendering, ← Nat.add_assoc] at h ⊢
            by_cases hwhole : samples ≤ short - rendered
            · have hcount : min samples (long - rendered) = samples := by omega
              rw [hcount] at h
              rw [hcount, Nat.min_eq_left hwhole]
              obtain ⟨hstop, hevents, hsize⟩ := ih (by omega) h
              exact ⟨hstop, (List.prefix_append_right_inj _).mpr hevents, hsize⟩
            · -- the wait crosses the shorter length, and its other samples are left out
              obtain ⟨extra, hextra⟩ : ∃ extra,
                  min samples (long - rendered) = short - rendered + extra :=
                ⟨_, (Nat.add_sub_cancel' (by omega)).symm⟩
              rw [Nat.min_eq_right (by omega), hextra, ← rendering_append,
                planFrom_of_le cycles ending (by omega)]
              refine ⟨rfl, ?_, Nat.add_sub_cancel' hrendered⟩
              rw [Plan.halt, List.append_nil, List.append_assoc]
              exact List.prefix_append _ _
        | stop =>
            rw [planFrom_stop hlong hc] at h
            exact absurd h hshort

end

end Score

/-! ### Runs for two lengths -/

namespace Player

variable {σ : Type} [SoundDevice σ]

/-- The samples of a run, handed out or kept after a failure. -/
def produced (run : Except Error Rendering × Player σ) : Array Int :=
  match run.1 with
  | .ok r => r.samples
  | .error _ => run.2.samples

theorem produced_run_start (image : ByteArray) (header : Header) (device : σ) :
    produced (start image header device).run =
      (DeviceEvent.heard device (start image header device).plan.events).toArray := by
  rw [run_eq_carryOut]
  cases (start image header device).plan.stop with
  | complete | marker | fault _ => exact Array.empty_append

/-- A run that stops as another one would that expects a number of samples. -/
theorem run_eq_of_plan_eq {p q : Player σ} {total : Nat} (hpq : q = { p with target := total })
    (hplan : q.plan = { p.plan with stop := p.plan.stop.expecting total }) :
    q.run.1 = p.run.1.mapError (Error.expecting total) ∧
      q.run.2 = { p.run.2 with target := total } := by
  rw [run_eq_carryOut, run_eq_carryOut, hplan, hpq]
  cases p.plan.stop with
  | complete | marker | fault _ => exact ⟨rfl, rfl⟩

/-- **The length cuts.**  Two first runs are alike but for the length.  If the longer run produces
at least as many samples as the shorter length, the shorter run is complete with the first of them.
If it produces fewer, the shorter run ends in the same result and the same player, where a failure
that names the length names the shorter one. -/
theorem run_start_eq_cut (image : ByteArray) (header : Header) (device : σ) {short long : Nat}
    (hle : short ≤ long) :
    let run (total : Nat) := (start image { header with totalSamples := total } device).run
    (short ≤ (produced (run long)).size →
      ∃ r, (run short).1 = .ok r ∧ r.endedByMarker = false ∧
        r.samples = (produced (run long)).extract 0 short) ∧
    ((produced (run long)).size < short →
      (run short).1 = (run long).1.mapError (Error.expecting short) ∧
      (run short).2 = { (run long).2 with target := short }) := by
  intro run
  let player (total : Nat) := start image { header with totalSamples := total } device
  let heard (total : Nat) := DeviceEvent.heard device (player total).plan.events
  have hproduced : produced (run long) = (heard long).toArray := produced_run_start ..
  have hsize : (produced (run long)).size = 0 + readings (player long).plan.events := by
    rw [hproduced, List.size_toArray, DeviceEvent.length_heard, Nat.zero_add]
  constructor
  · intro h
    rw [hsize] at h
    obtain ⟨hstop, hevents, hshort⟩ : (player short).plan.stop = .complete ∧
        (player short).plan.events <+: (player long).plan.events ∧
          0 + readings (player short).plan.events = short :=
      Score.planFrom_of_le_readings hle (Nat.zero_le _) h
    rw [Nat.zero_add] at hshort
    have hrun : (run short).1 = (player short).plan.result _ (heard short) :=
      result_run_start image { header with totalSamples := short } device
    have htake : heard short = (heard long).take _ := DeviceEvent.heard_of_prefix device hevents
    rw [Plan.result, hstop] at hrun
    refine ⟨_, hrun, rfl, ?_⟩
    rw [hproduced, htake, hshort, List.extract_toArray]
    rfl
  · intro h
    rw [hsize] at h
    exact run_eq_of_plan_eq rfl (Score.planFrom_of_readings_lt hle
      (fun n => Score.fault_expecting image header.dataOffset n long short) h)

/-- Commands for two samples, of which five, four or one are declared. -/
theorem run_start_eq_cut_out_of_data :
    let image : ByteArray := ⟨#[0x50, 0x90, 0x71]⟩
    let header := { Header.fields image with clock := 705600, dataOffset := 0 }
    let run (total : Nat) := (start image { header with totalSamples := total } Chip.powerOn).run
    (run 4).1 = .error (.unexpectedEnd 3 2 4) ∧
      ∃ r, (run 1).1 = .ok r ∧ r.endedByMarker = false ∧ r.samples = #[8191] := by
  intro image header run
  have hread : Score.read image 0 = ⟨[.busWrite 0x90, .shortWait 1], .outOfData 3⟩ := by
    rw [Score.read_of_ok (i := .busWrite 0x90) rfl, Score.read_of_ok (i := .shortWait 1) rfl,
      Score.read_of_end (by decide)]
    rfl
  have hplan : (start image { header with totalSamples := 5 } Chip.powerOn).plan =
      ⟨[.write 0x90, .advance 16, .advance 16], [.busWrite 0x90, .shortWait 1],
        .fault (.unexpectedEnd 3 2 5)⟩ := by
    show (Score.read image 0).plan (705600 / 44100) 5 0 = _
    rw [hread]
    rfl
  have herror : (run 5).1 = .error (.unexpectedEnd 3 2 5) := by
    refine (result_run_start ..).trans ?_
    rw [hplan]
    rfl
  have hproduced : produced (run 5) = #[8191, 0] := by
    refine (produced_run_start ..).trans ?_
    rw [hplan]
    refine congrArg List.toArray ?_
    show DeviceEvent.heard Chip.powerOn [.write 0x90, .advance 16, .advance 16] = [8191, 0]
    decide
  obtain ⟨-, hsame⟩ := run_start_eq_cut image header Chip.powerOn (show 4 ≤ 5 by decide)
  obtain ⟨hcut, -⟩ := run_start_eq_cut image header Chip.powerOn (show 1 ≤ 5 by decide)
  constructor
  · obtain ⟨hresult, -⟩ := hsame (by rw [hproduced]; decide)
    rw [hresult, herror]
    rfl
  · obtain ⟨r, hr, hmarker, hsamples⟩ := hcut (by rw [hproduced]; decide)
    rw [hproduced] at hsamples
    exact ⟨r, hr, hmarker, hsamples⟩

end Player

end Chiptune
