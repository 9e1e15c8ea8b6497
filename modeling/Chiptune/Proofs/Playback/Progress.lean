import Chiptune.Proofs.Playback.Stream
import Chiptune.Vgm.Song

/-!
# Playback — Progress

How far a plan gets along a score, counted in samples.  The samples a device gives along a record
are its readings (`readings`), and a plan is followed over a stretch of instructions at a time:

* `planFrom_append_of_lt`: a stretch without an end marker that stays below the length is told to
  the device as it stands, and the plan goes on behind it;
* `planFrom_append_of_le`: a stretch without an end marker that reaches the length completes the
  plan with exactly that many samples;
* `planFrom_waits`: of a stretch of waits only the total counts, cut to what is left;
* `plan_of_reads`: the plan of a song whose commands begin with whole instructions begins with them.

The waits ask for `waitTotal` samples in all, whatever instructions stand between them.
-/

namespace Chiptune

open Player (waitTotal)

namespace DeviceEvent

/-- How many readings a record stands for. -/
def readings : List DeviceEvent → Nat
  | [] => 0
  | .write _ :: rest => readings rest
  | .advance _ :: rest => readings rest + 1

theorem readings_append (first second : List DeviceEvent) :
    readings (first ++ second) = readings first + readings second := by
  induction first with
  | nil => exact (Nat.zero_add _).symm
  | cons e rest ih =>
      cases e with
      | write byte => exact ih
      | advance n => rw [List.cons_append, readings, readings, ih, Nat.add_right_comm]

theorem readings_rendering (cycles count : Nat) : readings (rendering cycles count) = count := by
  induction count with
  | zero => rfl
  | succ count ih => exact congrArg (· + 1) ih

theorem rendering_append (cycles m n : Nat) :
    rendering cycles m ++ rendering cycles n = rendering cycles (m + n) :=
  List.replicate_append_replicate

theorem length_heard {σ : Type} [SoundDevice σ] (device : σ) (events : List DeviceEvent) :
    (heard device events).length = readings events := by
  induction events generalizing device with
  | nil => rfl
  | cons e rest ih =>
      cases e with
      | write byte => exact ih _
      | advance n => exact congrArg (· + 1) (ih _)

end DeviceEvent

open DeviceEvent (readings readings_append readings_rendering)

/-! ### Stretches of instructions -/

namespace Instruction

/-- The samples an instruction asks for. -/
def pause (i : Instruction) : Nat :=
  match i.command with
  | .wait samples => samples
  | _ => 0

theorem pause_of_wait {i : Instruction} {samples : Nat} (h : i.command = .wait samples) :
    i.pause = samples := by
  rw [pause, h]

theorem pause_of_write {i : Instruction} {byte : UInt8} (h : i.command = .write byte) :
    i.pause = 0 := by
  rw [pause, h]

/-- What a device is told by an instruction whose wait is not cut short. -/
def events (cycles : Nat) (i : Instruction) : List DeviceEvent :=
  match i.command with
  | .write byte => [.write byte]
  | .wait samples => DeviceEvent.rendering cycles samples
  | .stop => []

theorem readings_events (cycles : Nat) (i : Instruction) :
    readings (i.events cycles) = i.pause := by
  unfold events pause
  cases i.command with
  | wait samples => exact readings_rendering cycles samples
  | write _ | stop => rfl

/-- No end marker is among some instructions. -/
def NoMarker (is : List Instruction) : Prop :=
  ∀ i ∈ is, i.command ≠ .stop

/-- All of some instructions are waits. -/
def AllWaits (is : List Instruction) : Prop :=
  ∀ i ∈ is, ∃ samples, i.command = .wait samples

end Instruction

open Instruction (NoMarker AllWaits)

/-- The waits ask for the sum of what each asks for. -/
theorem waitTotal_eq_sum (is : List Instruction) :
    waitTotal is = (is.map Instruction.pause).sum := by
  have hfrom : ∀ total, is.foldl (fun total i =>
      match i.command with
      | .wait samples => total + samples
      | _ => total) total = total + (is.map Instruction.pause).sum := by
    induction is with
    | nil => intro total; rfl
    | cons i rest ih =>
        intro total
        rw [List.foldl_cons, ih, List.map_cons, List.sum_cons, Instruction.pause]
        cases i.command with
        | wait samples => exact Nat.add_assoc _ _ _
        | write _ | stop => rw [Nat.zero_add]
  exact (hfrom 0).trans (Nat.zero_add _)

theorem waitTotal_nil : waitTotal [] = 0 := rfl

theorem waitTotal_cons (i : Instruction) (rest : List Instruction) :
    waitTotal (i :: rest) = i.pause + waitTotal rest := by
  simp only [waitTotal_eq_sum, List.map_cons, List.sum_cons]

theorem readings_flatMap_events (cycles : Nat) (is : List Instruction) :
    readings (is.flatMap (Instruction.events cycles)) = waitTotal is := by
  induction is with
  | nil => rfl
  | cons i rest ih =>
      rw [List.flatMap_cons, readings_append, Instruction.readings_events, ih, waitTotal_cons]

namespace Score

/-! ### One instruction of a plan -/

section

variable {cycles target rendered : Nat} {ending : ScoreEnd} {i : Instruction}
  {rest : List Instruction}

theorem planFrom_of_le (cycles : Nat) (ending : ScoreEnd) (h : target ≤ rendered)
    (is : List Instruction) : planFrom cycles target ending rendered is = .halt .complete :=
  plan_of_le ⟨is, ending⟩ cycles h

theorem planFrom_write {byte : UInt8} (hdone : ¬ target ≤ rendered)
    (h : i.command = .write byte) :
    planFrom cycles target ending rendered (i :: rest) =
      (planFrom cycles target ending rendered rest).after i [.write byte] := by
  rw [planFrom, if_neg hdone, h]

theorem planFrom_wait {samples : Nat} (hdone : ¬ target ≤ rendered)
    (h : i.command = .wait samples) :
    planFrom cycles target ending rendered (i :: rest) =
      (planFrom cycles target ending (rendered + min samples (target - rendered)) rest).after i
        (DeviceEvent.rendering cycles (min samples (target - rendered))) := by
  rw [planFrom, if_neg hdone, h]

theorem planFrom_stop (hdone : ¬ target ≤ rendered) (h : i.command = .stop) :
    planFrom cycles target ending rendered (i :: rest) = ⟨[], [i], .marker⟩ := by
  rw [planFrom, if_neg hdone, h]

end

/-! ### A stretch of a plan -/

variable (cycles target : Nat) (ending : ScoreEnd) (rest : List Instruction)

/-- A stretch without an end marker that stays below the length is told as it stands. -/
theorem planFrom_append_of_lt {is : List Instruction} {rendered : Nat} (hmarker : NoMarker is)
    (h : rendered + waitTotal is < target) :
    planFrom cycles target ending rendered (is ++ rest) =
      let plan := planFrom cycles target ending (rendered + waitTotal is) rest
      ⟨is.flatMap (Instruction.events cycles) ++ plan.events, is ++ plan.walked, plan.stop⟩ := by
  induction is generalizing rendered with
  | nil => rfl
  | cons i is ih =>
      obtain ⟨hi, his⟩ := List.forall_mem_cons.mp hmarker
      rw [waitTotal_cons] at h ⊢
      have hdone : ¬ target ≤ rendered := by omega
      cases hc : i.command with
      | write byte =>
          rw [Instruction.pause_of_write hc, Nat.zero_add] at h ⊢
          rw [List.cons_append, planFrom_write hdone hc, ih his h]
          simp only [Plan.after, Instruction.events, List.flatMap_cons, hc, List.append_assoc,
            List.cons_append]
      | wait samples =>
          rw [Instruction.pause_of_wait hc, ← Nat.add_assoc] at h ⊢
          have hwhole : min samples (target - rendered) = samples := by omega
          rw [List.cons_append, planFrom_wait hdone hc, hwhole, ih his h]
          simp only [Plan.after, Instruction.events, List.flatMap_cons, hc, List.append_assoc,
            List.cons_append]
      | stop => exact absurd hc hi

/-- A stretch without an end marker that reaches the length completes the plan there. -/
theorem planFrom_append_of_le {is : List Instruction} {rendered : Nat} (hmarker : NoMarker is)
    (hle : rendered ≤ target) (h : target ≤ rendered + waitTotal is) :
    let plan := planFrom cycles target ending rendered (is ++ rest)
    plan.stop = .complete ∧ rendered + readings plan.events = target := by
  induction is generalizing rendered with
  | nil =>
      have hdone : target ≤ rendered := h
      rw [planFrom_of_le cycles ending hdone]
      exact ⟨rfl, Nat.le_antisymm hle hdone⟩
  | cons i is ih =>
      obtain ⟨hi, his⟩ := List.forall_mem_cons.mp hmarker
      rw [waitTotal_cons] at h
      by_cases hdone : target ≤ rendered
      · rw [planFrom_of_le cycles ending hdone]
        exact ⟨rfl, Nat.le_antisymm hle hdone⟩
      · cases hc : i.command with
        | write byte =>
            rw [Instruction.pause_of_write hc, Nat.zero_add] at h
            rw [List.cons_append, planFrom_write hdone hc]
            exact ih his hle h
        | wait samples =>
            rw [Instruction.pause_of_wait hc] at h
            rw [List.cons_append, planFrom_wait hdone hc]
            simp only [Plan.after, readings_append, readings_rendering, ← Nat.add_assoc]
            exact ih his (by omega) (by omega)
        | stop => exact absurd hc hi

/-- Of a stretch of waits only the total counts, cut to what is left. -/
theorem planFrom_waits {waits : List Instruction} (hwaits : AllWaits waits) (rendered : Nat) :
    let count := min (waitTotal waits) (target - rendered)
    let plan := planFrom cycles target ending rendered (waits ++ rest)
    let next := planFrom cycles target ending (rendered + count) rest
    plan.events = DeviceEvent.rendering cycles count ++ next.events ∧ plan.stop = next.stop := by
  induction waits generalizing rendered with
  | nil =>
      rw [waitTotal_nil, Nat.zero_min]
      exact ⟨rfl, rfl⟩
  | cons i waits ih =>
      intro count plan next
      obtain ⟨⟨samples, hc⟩, hrest⟩ := List.forall_mem_cons.mp hwaits
      by_cases hdone : target ≤ rendered
      · have hcount : count = 0 := by omega
        have hplan : plan = .halt .complete := planFrom_of_le cycles ending hdone _
        have hnext : next = .halt .complete := planFrom_of_le cycles ending (by omega) _
        rw [hplan, hnext, hcount]
        exact ⟨rfl, rfl⟩
      · -- the first wait takes its part of what is left, and the others share the rest
        obtain ⟨first, hfirst⟩ : ∃ first, first = min samples (target - rendered) := ⟨_, rfl⟩
        have hplan : plan = (planFrom cycles target ending (rendered + first) (waits ++ rest)).after
            i (DeviceEvent.rendering cycles first) := by
          rw [hfirst]
          exact planFrom_wait hdone hc
        have hcount : count = first + min (waitTotal waits) (target - (rendered + first)) := by
          have htotal := waitTotal_cons i waits
          rw [Instruction.pause_of_wait hc] at htotal
          omega
        have hnext : next = planFrom cycles target ending
            (rendered + first + min (waitTotal waits) (target - (rendered + first))) rest := by
          rw [Nat.add_assoc, ← hcount]
        obtain ⟨hevents, hstop⟩ := ih hrest (rendered + first)
        rw [hplan, hnext, hcount, ← DeviceEvent.rendering_append, List.append_assoc]
        exact ⟨congrArg (_ ++ ·) hevents, hstop⟩

end Score

/-! ### Songs -/

namespace Song

/-- The plan for the whole song. -/
def plan (song : Song) : Plan :=
  (Score.read song.image song.header.dataOffset).plan (Chiptune.cyclesPerSample song.header.clock)
    song.header.totalSamples 0

/-- A render is what the plan of the song states for a device that was reset. -/
theorem renderOn_eq_result {σ : Type} [SoundDevice σ] (song : Song) (device : σ) :
    song.renderOn device = song.plan.result (Chiptune.cyclesPerSample song.header.clock)
      (DeviceEvent.heard (SoundDevice.reset device) song.plan.events) :=
  Player.result_run_start song.image song.header (SoundDevice.reset device)

/-- The plan of a song whose commands begin with whole instructions. -/
theorem plan_of_reads {song : Song} {front back : ByteArray} {is : List Instruction}
    (hfront : Instruction.Reads front 0 is front.size) (hcommands : song.commands = front ++ back) :
    song.plan = Score.planFrom (Chiptune.cyclesPerSample song.header.clock)
      song.header.totalSamples
      (((Score.read back 0).ending.moved front.size).moved song.header.dataOffset) 0
      (is ++ (Score.read back 0).instructions) := by
  rw [commands] at hcommands
  rw [plan, Score.read_extract, hcommands, Score.read_append hfront]
  rfl

end Song

end Chiptune
