import Chiptune.Proofs.Playback.Accounts

/-!
# Playback — Failure

A run that fails stops in front of a command it cannot read.  It executed every command before that
one and did nothing of the one itself, so it can be asked to go on, and fails there again.

* `Stuck`: a player with samples to come and nothing it can read at its cursor.
* `stuck_of_run`: a run that fails leaves the player stuck, and `Stuck.run`: a run of a stuck player
  changes nothing.
* `planFrom_told`: a run tells the device all that the instructions it executed ask for, but for the
  end of a wait that reaches past the declared length; and then it does not fail.
* `runs_failed`: so a failed run is the last one that does anything, and what was played before it is
  all there.

Runs that finished may have come before.  They went by their plans as the failed one did, so the
commands are followed from the first on, run by run (`Ran`).
-/

namespace Chiptune

open DeviceEvent (readings readings_append readings_rendering)
open Instruction (Reads)
open Player (waitTotal)

/-- Where in an image a failure is, if it is one of the commands. -/
def Error.offset? : Error → Option Nat
  | .unknownCommand _ offset => some offset
  | .truncatedCommand _ offset => some offset
  | .unexpectedEnd offset _ _ => some offset
  | _ => none

/-! ### What a plan tells -/

/-- What the device is to be told is the beginning of what the instructions ask for: all of it, unless
the plan is complete, and then as much as makes the declared length. -/
structure Plan.Told (plan : Plan) (cycles held target : Nat) : Prop where
  begins : plan.events <+: plan.walked.flatMap (Instruction.events cycles)
  reaches : plan.stop = .complete → held + readings plan.events = target
  whole : plan.stop ≠ .complete → plan.events = plan.walked.flatMap (Instruction.events cycles)

/-- An instruction in front that is told as it stands. -/
theorem Plan.Told.after {plan : Plan} {cycles held target : Nat} {i : Instruction}
    (h : plan.Told cycles (held + i.pause) target) :
    (plan.after i (i.events cycles)).Told cycles held target where
  begins := by
    rw [Plan.after, List.flatMap_cons]
    exact (List.prefix_append_right_inj _).mpr h.begins
  reaches hstop := by
    rw [Plan.after, readings_append, Instruction.readings_events, ← Nat.add_assoc]
    exact h.reaches hstop
  whole hstop := by
    rw [Plan.after, List.flatMap_cons]
    exact congrArg (_ ++ ·) (h.whole hstop)

theorem Score.planFrom_told (cycles : Nat) {target held : Nat} (ending : ScoreEnd)
    (hle : held ≤ target) (is : List Instruction) :
    (planFrom cycles target ending held is).Told cycles held target := by
  have hdone : ∀ {held} (is : List Instruction), held ≤ target → target ≤ held →
      (planFrom cycles target ending held is).Told cycles held target := fun is hle hge => by
    rw [planFrom_of_le cycles ending hge]
    exact ⟨List.prefix_rfl, fun _ => Nat.le_antisymm hle hge, fun _ => rfl⟩
  induction is generalizing held with
  | nil =>
      by_cases hge : target ≤ held
      · exact hdone [] hle hge
      · rw [planFrom, if_neg hge]
        refine ⟨List.prefix_rfl, fun hstop => ?_, fun _ => rfl⟩
        cases hstop
  | cons i rest ih =>
      by_cases hge : target ≤ held
      · exact hdone (i :: rest) hle hge
      · cases hc : i.command with
        | write byte =>
            have hevents : i.events cycles = [.write byte] := by rw [Instruction.events, hc]
            rw [planFrom_write hge hc, ← hevents]
            refine Plan.Told.after ?_
            rw [Instruction.pause_of_write hc]
            exact ih hle
        | stop =>
            have hasked : [i].flatMap (Instruction.events cycles) = [] := by
              rw [List.flatMap_singleton, Instruction.events, hc]
            rw [planFrom_stop hge hc]
            refine ⟨List.nil_prefix, fun hstop => ?_, fun _ => hasked.symm⟩
            cases hstop
        | wait samples =>
            have hevents : i.events cycles = DeviceEvent.rendering cycles samples := by
              rw [Instruction.events, hc]
            rw [planFrom_wait hge hc]
            rcases Nat.le_total samples (target - held) with hfits | hpast
            · rw [Nat.min_eq_left hfits, ← hevents]
              refine Plan.Told.after ?_
              rw [Instruction.pause_of_wait hc]
              exact ih (by omega)
            · -- the wait makes up the declared length, and nothing is walked behind it
              have hcut : DeviceEvent.rendering cycles (target - held) <+:
                  i.events cycles := by
                obtain ⟨more, rfl⟩ := Nat.exists_eq_add_of_le hpast
                rw [hevents, ← DeviceEvent.rendering_append]
                exact List.prefix_append _ _
              rw [Nat.min_eq_right hpast, Nat.add_sub_cancel' hle,
                planFrom_of_le cycles ending (Nat.le_refl target), Plan.after, Plan.halt,
                List.append_nil]
              refine ⟨?_, fun _ => ?_, fun hstop => absurd rfl hstop⟩
              · rw [List.flatMap_singleton]
                exact hcut
              · rw [readings_rendering, Nat.add_sub_cancel' hle]

namespace Player

variable {σ : Type}

/-! ### Players that cannot go on -/

/-- A player with samples to come that cannot read on, and why. -/
structure Stuck (p : Player σ) (e : Error) : Prop where
  unfinished : ¬ p.target ≤ p.samples.size
  reason : p.image.size ≤ p.cursor ∧ e = .unexpectedEnd p.cursor p.samples.size p.target ∨
    p.cursor < p.image.size ∧ Instruction.decode p.image p.cursor = .error e

namespace Stuck

variable {p : Player σ} {e : Error}

/-- The reason is found where the player stands. -/
theorem offset?_eq (h : p.Stuck e) : e.offset? = some p.cursor := by
  rcases h.reason with ⟨-, rfl⟩ | ⟨hlt, hdec⟩
  · rfl
  · rcases (Instruction.decode_eq_error_iff hlt).mp hdec with ⟨-, rfl⟩ | ⟨-, rfl⟩
    · rfl
    · rfl

theorem exitStatus (h : p.Stuck e) : e.exitStatus = 5 := by
  rcases h.reason with ⟨-, rfl⟩ | ⟨hlt, hdec⟩
  · rfl
  · rcases (Instruction.decode_eq_error_iff hlt).mp hdec with ⟨-, rfl⟩ | ⟨-, rfl⟩
    · rfl
    · rfl

theorem plan_eq (h : p.Stuck e) : p.plan = .halt (.fault e) := by
  rcases h.reason with ⟨hend, rfl⟩ | ⟨hlt, hdec⟩
  · exact plan_of_end h.unfinished hend
  · exact plan_of_error h.unfinished (Nat.not_le.mpr hlt) hdec

variable [SoundDevice σ]

/-- A run of a stuck player fails and changes nothing. -/
theorem run (h : p.Stuck e) : p.run = (.error e, p) := by
  rw [run_eq_carryOut, h.plan_eq, carryOut_halt]
  rfl

/-- So does any number of runs. -/
theorem runs (h : p.Stuck e) (n : Nat) : p.runs n = (List.replicate n (.error e), p) := by
  induction n with
  | zero => rfl
  | succ n ih => rw [Player.runs, ih, h.run, List.replicate_succ']

end Stuck

variable [SoundDevice σ]

/-- A walk that does not get through stops where the player is stuck. -/
theorem stuck_of_walk {p q : Player σ} {e : Error} (h : p.walk = (.fault e, q)) : q.Stuck e := by
  induction p using walk.induct with
  | case1 p hdone =>
      rw [walk, if_pos hdone] at h
      cases h
  | case2 p hdone hend =>
      rw [walk, if_neg hdone, if_pos hend] at h
      cases h
      exact ⟨hdone, .inl ⟨hend, rfl⟩⟩
  | case3 p hdone hend e' hdec =>
      rw [walk_of_error hdone hend hdec] at h
      cases h
      exact ⟨hdone, .inr ⟨Nat.lt_of_not_le hend, hdec⟩⟩
  | case4 p hdone hend i hdec hstop =>
      rw [walk_of_ok hdone hdec, if_pos hstop] at h
      cases h
  | case5 p hdone hend i hdec hstop ih =>
      rw [walk_of_ok hdone hdec, if_neg hstop] at h
      exact ih h

/-- A run that fails leaves the player stuck. -/
theorem stuck_of_run {p : Player σ} {e : Error} (h : p.run.1 = .error e) : p.run.2.Stuck e := by
  unfold run at h ⊢
  split at h
  · cases h
  · cases h
  · rename_i e' q hwalk
    cases h
    exact stuck_of_walk hwalk

theorem samples_run_of_ok {p : Player σ} {r : Rendering} (h : p.run.1 = .ok r) :
    p.run.2.samples = #[] := by
  rw [run_eq_carryOut] at h ⊢
  cases hstop : p.plan.stop with
  | complete | marker => rfl
  | fault e =>
      rw [hstop] at h
      cases h

theorem run_of_error {p : Player σ} {e : Error} (h : p.run.1 = .error e) :
    p.plan.stop = .fault e ∧ p.run.2 = p.carryOut p.plan := by
  rw [run_eq_carryOut] at h ⊢
  cases hstop : p.plan.stop with
  | complete | marker =>
      rw [hstop] at h
      cases h
  | fault e' =>
      rw [hstop] at h
      cases h
      exact ⟨rfl, rfl⟩

/-- Of some runs that end in a failure, the last that finished, or none at all: since then every run
failed, and only the first of them did anything. -/
theorem exists_last_finished {p : Player σ} (hp : p.samples = #[]) {m : Nat} {e : Error}
    (h : (p.runs m).2.run.1 = .error e) :
    ∃ k ≤ m, (k = 0 ∨ ∃ r, (p.runs (k - 1)).2.run.1 = .ok r) ∧
      (∀ j, k ≤ j → j ≤ m → (p.runs j).2.run.1 = .error e) ∧ (p.runs k).2.samples = #[] ∧
      (p.runs (m + 1)).2 = (p.runs (k + 1)).2 := by
  induction m with
  | zero =>
      refine ⟨0, Nat.le_refl 0, .inl rfl, fun j _ hj => ?_, hp, rfl⟩
      obtain rfl : j = 0 := Nat.le_zero.mp hj
      exact h
  | succ m ih =>
      cases hlast : (p.runs m).2.run.1 with
      | ok r =>
          refine ⟨m + 1, Nat.le_refl _, .inr ⟨r, hlast⟩, fun j hge hle => ?_,
            samples_run_of_ok hlast, rfl⟩
          obtain rfl : j = m + 1 := Nat.le_antisymm hle hge
          exact h
      | error e' =>
          have hstuck : (p.runs (m + 1)).2.Stuck e' := stuck_of_run hlast
          have hagain : (p.runs (m + 1)).2.run.2 = (p.runs (m + 1)).2 := by rw [hstuck.run]
          rw [hstuck.run] at h
          cases h
          obtain ⟨k, hk, hfinished, hfailed, hempty, hsame⟩ := ih hlast
          refine ⟨k, Nat.le_succ_of_le hk, hfinished, fun j hge hle => ?_, hempty,
            hagain.trans hsame⟩
          rcases Nat.le_succ_iff.mp hle with hle | rfl
          · exact hfailed j hge hle
          · rw [hstuck.run]

/-! ### What a run did -/

/-- From the player before a run to the one after it, these instructions were executed, and the
device was told this. -/
structure Ran (before after : Player (Taped σ)) (walked : List Instruction)
    (told : List DeviceEvent) : Prop where
  reads : Reads before.image before.cursor walked after.cursor
  counted : after.executed = before.executed + walked.length
  tape : after.device.tape = before.device.tape ++ told

/-- A run executes the instructions of its plan and tells the device what the plan says. -/
theorem ran_run (p : Player (Taped σ)) : p.Ran p.run.2 p.plan.walked p.plan.events := by
  have hsame : p.run.2 = { p.carryOut p.plan with samples := p.run.2.samples } := by
    rw [run_eq_carryOut]
    cases p.plan.stop <;> rfl
  rw [hsame]
  exact ⟨Score.reads_walked _ _ _ _ _, rfl, p.tape_carryOut p.plan⟩

/-- Runs one after the other, by what each of them did. -/
theorem ran_runs {p : Player (Taped σ)} {walked : Nat → List Instruction}
    {told : Nat → List DeviceEvent} (himage : ∀ k, (p.runs k).2.image = p.image)
    (h : ∀ k, (p.runs k).2.Ran (p.runs (k + 1)).2 (walked k) (told k)) (m : Nat) :
    p.Ran (p.runs m).2 ((List.range m).flatMap walked) ((List.range m).flatMap told) := by
  induction m with
  | zero => exact ⟨.nil _, rfl, (List.append_nil _).symm⟩
  | succ m ih =>
      obtain ⟨hreads, hcounted, htape⟩ := h m
      rw [himage] at hreads
      rw [List.range_succ, List.flatMap_append, List.flatMap_append, List.flatMap_singleton,
        List.flatMap_singleton]
      refine ⟨ih.reads.trans hreads, ?_, ?_⟩
      · rw [hcounted, ih.counted, List.length_append, Nat.add_assoc]
      · rw [htape, ih.tape, List.append_assoc]

/-- What a run told the device is all that its instructions ask for, unless the run reached the
declared length, and then it is the beginning of that. -/
theorem told_of_run {p : Player σ} (hle : p.samples.size ≤ p.target) :
    let asked := p.plan.walked.flatMap (Instruction.events p.cyclesPerSample)
    p.plan.events = asked ∨
      (∃ r, p.run.1 = .ok r ∧ r.endedByMarker = false ∧ r.samples.size = p.target) ∧
        p.plan.events <+: asked := by
  intro asked
  have htold : p.plan.Told p.cyclesPerSample p.samples.size p.target :=
    Score.planFrom_told _ _ hle _
  by_cases hstop : p.plan.stop = .complete
  · refine .inr ⟨⟨(p.carryOut p.plan).rendering false, ?_, rfl, ?_⟩, htold.begins⟩
    · rw [run_eq_carryOut, hstop]
    · exact (p.size_samples_carryOut p.plan).trans (htold.reaches hstop)
  · exact .inl (htold.whole hstop)

/-- A run that fails with no samples held before holds what its waits ask for. -/
theorem samples_of_failed {p : Player σ} (hempty : p.samples = #[]) {e : Error}
    (h : p.run.1 = .error e) :
    p.run.2.samples.toList = DeviceEvent.heard p.device p.plan.events ∧
      p.run.2.samples.size = waitTotal p.plan.walked := by
  have hle : p.samples.size ≤ p.target := by
    rw [hempty]
    exact Nat.zero_le _
  obtain ⟨hstop, hrun⟩ := run_of_error h
  have hsamples : p.run.2.samples.toList = DeviceEvent.heard p.device p.plan.events := by
    rw [hrun]
    show (p.samples ++ _).toList = _
    rw [hempty, Array.empty_append]
  refine ⟨hsamples, ?_⟩
  rcases told_of_run hle with hwhole | ⟨⟨r, hok, -⟩, -⟩
  · rw [← Array.length_toList, hsamples, DeviceEvent.length_heard, hwhole,
      readings_flatMap_events]
  · cases h.symm.trans hok

/-- **A failed run is final and loses nothing.**  Play an image on any device, run after run, until
a run fails, the first or a later one.  A tape beside the device changes nothing.

The failure is the one of the command the player then stands in front of, or of the end of the image;
there are samples to come.  Every command before that position was executed, once and in order, and
nothing else: run by run, the device was told all that the commands ask for, but for the end of a
wait with which a run reached the declared length and finished.  Of the samples, the player holds
those given since the last run that finished, as many as the waits since then ask for.

Every further run fails in the same way, with nothing to tell the device, and leaves the player and
the device as they are. -/
theorem runs_failed (image : ByteArray) (header : Header) (device : σ) {m : Nat} {e : Error}
    (h : ((Player.start image header device).runs m).2.run.1 = .error e) :
    let first := Player.start image header (Taped.new device)
    let before k := (first.runs k).2
    let failed := before (m + 1)
    ((first.runs (m + 1)).1 = ((Player.start image header device).runs (m + 1)).1 ∧
      failed.untaped = ((Player.start image header device).runs (m + 1)).2) ∧
    e.offset? = some failed.cursor ∧
    (image.size ≤ failed.cursor ∧
        e = .unexpectedEnd failed.cursor failed.samples.size header.totalSamples ∨
      failed.cursor < image.size ∧ Instruction.decode image failed.cursor = .error e) ∧
    failed.samples.size < header.totalSamples ∧
    (∃ (walked : Nat → List Instruction) (told : Nat → List DeviceEvent),
      Reads image header.dataOffset ((List.range (m + 1)).flatMap walked) failed.cursor ∧
      failed.executed = ((List.range (m + 1)).flatMap walked).length ∧
      failed.device.tape = (List.range (m + 1)).flatMap told ∧
      (∀ k, (before k).Ran (before (k + 1)) (walked k) (told k)) ∧
      (∀ k, let asked := (walked k).flatMap (Instruction.events (header.clock / 44100))
        told k = asked ∨
          (∃ r, (before k).run.1 = .ok r ∧ r.endedByMarker = false ∧
            r.samples.size = header.totalSamples) ∧ told k <+: asked) ∧
      ∃ k ≤ m, (k = 0 ∨ ∃ r, (before (k - 1)).run.1 = .ok r) ∧
        (∀ j, k ≤ j → j ≤ m → (before j).run.1 = .error e) ∧
        failed.samples.toList = DeviceEvent.heard (before k).device (told k) ∧
        failed.samples.size = waitTotal (walked k)) ∧
    failed.plan.calls = [] ∧
    ∀ n, failed.runs n = (List.replicate n (.error e), failed) := by
  intro first before failed
  have hbooks : ∀ k, ∃ is handed, (before k).Accounts image header is handed := fun k => by
    obtain ⟨is, his⟩ := Accounts.runs image header device k
    exact ⟨is, _, his⟩
  have himage : ∀ k, (before k).image = image := fun k => by
    obtain ⟨is, handed, his⟩ := hbooks k
    exact his.sameImage
  have htarget : ∀ k, (before k).target = header.totalSamples := fun k => by
    obtain ⟨is, handed, his⟩ := hbooks k
    exact his.sameTarget
  have herror : (before m).run.1 = .error e := by
    obtain ⟨hresult, -⟩ := (before m).untaped_run
    rw [hresult, (first.untaped_runs m).2]
    exact h
  have hstuck : failed.Stuck e := stuck_of_run herror
  have hran : ∀ k, (before k).Ran (before (k + 1)) (before k).plan.walked (before k).plan.events :=
    fun k => (before k).ran_run
  have hall := ran_runs himage hran (m + 1)
  refine ⟨first.untaped_runs (m + 1), hstuck.offset?_eq, ?_, ?_,
    ⟨fun k => (before k).plan.walked, fun k => (before k).plan.events, hall.reads, ?_, hall.tape,
      hran, fun k => ?_, ?_⟩, ?_, hstuck.runs⟩
  · rw [← himage (m + 1), ← htarget (m + 1)]
    exact hstuck.reason
  · rw [← htarget (m + 1)]
    exact Nat.lt_of_not_le hstuck.unfinished
  · exact hall.counted.trans (Nat.zero_add _)
  · obtain ⟨is, handed, his⟩ := hbooks k
    have hle := his.held
    have hcycles : (before k).cyclesPerSample = header.clock / 44100 :=
      congrArg Chiptune.cyclesPerSample his.sameClock
    rw [← htarget k] at hle ⊢
    rw [← hcycles]
    exact told_of_run hle
  · obtain ⟨k, hk, hfinished, hfailed, hempty, hsame⟩ := exists_last_finished rfl herror
    obtain ⟨hsamples, hsize⟩ := samples_of_failed hempty (hfailed k (Nat.le_refl k) hk)
    have hlast : failed.samples = (before k).run.2.samples := congrArg Player.samples hsame
    rw [← hlast] at hsamples hsize
    exact ⟨k, hk, hfinished, hfailed, hsamples, hsize⟩
  · rw [hstuck.plan_eq]
    rfl

/-- The first run ends at a marker after one sample.  The second gives two samples more, comes to an
opcode nobody knows, and three more runs stay there. -/
theorem runs_failed_second_run :
    let image : ByteArray := ⟨#[0x70, 0x66, 0x50, 0x90, 0x71, 0x00]⟩
    let header := { Header.fields image with clock := 705600, totalSamples := 5, dataOffset := 0 }
    let failed := ((start image header (Taped.new Chip.powerOn)).runs 2).2
    failed.cursor = 5 ∧
      failed.runs 3 = (List.replicate 3 (.error (.unknownCommand 0x00 5)), failed) := by
  intro image header failed
  have hread : Score.read image 0 =
      ⟨.shortWait 0 :: .stop :: (Score.read image 2).instructions,
        (Score.read image 2).ending⟩ := by
    rw [Score.read_of_ok (i := .shortWait 0) rfl, Score.read_of_ok (i := .stop) rfl]
    rfl
  have hplan : (start image header Chip.powerOn).plan =
      ⟨[.advance 16], [.shortWait 0, .stop], .marker⟩ := by
    show (Score.read image 0).plan (705600 / 44100) 5 0 = _
    rw [hread]
    rfl
  have hbehind : Score.read image 2 =
      ⟨[.busWrite 0x90, .shortWait 1], .unreadable (.unknownCommand 0x00 5)⟩ := by
    rw [Score.read_of_ok (i := .busWrite 0x90) rfl, Score.read_of_ok (i := .shortWait 1) rfl,
      Score.read_of_error (by decide) rfl]
    rfl
  have hnext : { (start image header Chip.powerOn).carryOut
      ⟨[.advance 16], [.shortWait 0, .stop], .marker⟩ with samples := #[] }.plan =
      ⟨[.write 0x90, .advance 16, .advance 16], [.busWrite 0x90, .shortWait 1],
        .fault (.unknownCommand 0x00 5)⟩ := by
    show (Score.read image 2).plan (705600 / 44100) 5 0 = _
    rw [hbehind]
    rfl
  have herror : ((start image header Chip.powerOn).runs 1).2.run.1 =
      .error (.unknownCommand 0x00 5) := by
    show (start image header Chip.powerOn).run.2.run.1 = _
    rw [(start image header Chip.powerOn).run_eq_carryOut, hplan, run_eq_carryOut, hnext]
  obtain ⟨-, hoffset, -, -, -, -, hfinal⟩ := runs_failed image header Chip.powerOn herror
  exact ⟨(Option.some.inj hoffset).symm, hfinal 3⟩

end Player

end Chiptune
