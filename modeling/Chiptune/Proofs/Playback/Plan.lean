import Chiptune.Proofs.Device.Calls
import Chiptune.Vgm.Player

/-!
# Playback — Plan

Playing an image in two passes.  The first reads all instructions up to the first position that
cannot be read (`Score.read`); the second walks that list and writes down what a device is to be
told and where to stop (`Score.plan`).  Neither pass sees a device.

* `walk_eq_carryOut`: from every state, a player walks exactly as the plan for its position says,
  and is left where carrying out that plan leaves it.
* `run_start_eq_plan`: the first run makes exactly the calls of the plan, on every device, and its
  result is the one the plan states; so a run is the replay of what a recorder took down.

The player decodes, clamps and renders in one loop.  The proof follows that loop: a plan begins
with what the current instruction asks for (`Plan.after`), and carrying it out can be cut there
(`carryOut_after`).
-/

namespace Chiptune

theorem Instruction.not_size_le_of_decode {data : ByteArray} {offset : Nat} {i : Instruction}
    (h : decode data offset = .ok i) : ¬ data.size ≤ offset := by
  have hend := end_le_of_decode h
  have hpos := i.length_pos
  omega

/-! ### The two passes -/

/-- What stands where no further instruction can be read. -/
inductive ScoreEnd where
  | outOfData (offset : Nat)
  | unreadable (error : Error)

/-- The failure of a player that gets there with samples still to come. -/
def ScoreEnd.fault (rendered expected : Nat) : ScoreEnd → Error
  | .outOfData offset => .unexpectedEnd offset rendered expected
  | .unreadable e => e

/-- The instructions of an image, and what stands after the last of them. -/
structure Score where
  instructions : List Instruction
  ending : ScoreEnd

/-- What a player is to do. -/
structure Plan where
  /-- What the device is told. -/
  events : List DeviceEvent
  /-- The instructions executed, first to last. -/
  walked : List Instruction
  stop : Stop

namespace Plan

/-- Stop at once. -/
def halt (stop : Stop) : Plan := ⟨[], [], stop⟩

/-- An instruction that tells the device some events, and then a plan. -/
def after (plan : Plan) (i : Instruction) (events : List DeviceEvent) : Plan :=
  ⟨events ++ plan.events, i :: plan.walked, plan.stop⟩

/-- The calls of the device, in order. -/
def calls (plan : Plan) : List DeviceCall :=
  plan.events.flatMap DeviceEvent.calls

/-- The cycles the device is given. -/
def cycles (plan : Plan) : Nat :=
  (plan.events.map DeviceEvent.cycles).sum

/-- The bytes the executed instructions take up. -/
def length (plan : Plan) : Nat :=
  (plan.walked.map Instruction.length).sum

/-- The result of a run that goes by the plan on a device that gave these samples. -/
def result (plan : Plan) (cyclesPerSample : Nat) (samples : List Int) : Except Error Rendering :=
  match plan.stop with
  | .complete => .ok ⟨samples.toArray, cyclesPerSample, plan.cycles, plan.walked.length, false⟩
  | .marker => .ok ⟨samples.toArray, cyclesPerSample, plan.cycles, plan.walked.length, true⟩
  | .fault e => .error e

/-- Results that go by one plan differ in the samples alone. -/
theorem result_map (plan : Plan) (cyclesPerSample : Nat) (samples samples' : List Int) :
    plan.result cyclesPerSample samples' =
      (plan.result cyclesPerSample samples).map fun r => { r with samples := samples'.toArray } := by
  unfold result
  cases plan.stop <;> rfl

end Plan

namespace Score

/-- Read the instructions of an image from a position on. -/
def read (image : ByteArray) (start : Nat) : Score :=
  if image.size ≤ start then ⟨[], .outOfData start⟩
  else
    match _h : Instruction.decode image start with
    | .error e => ⟨[], .unreadable e⟩
    | .ok i =>
      let rest := read image (start + i.length)
      ⟨i :: rest.instructions, rest.ending⟩
termination_by image.size - start
decreasing_by
  have hend := Instruction.end_le_of_decode _h
  have hpos := i.length_pos
  omega

theorem read_of_end {image : ByteArray} {start : Nat} (h : image.size ≤ start) :
    read image start = ⟨[], .outOfData start⟩ := by
  rw [read, if_pos h]

theorem read_of_error {image : ByteArray} {start : Nat} {e : Error} (h : ¬ image.size ≤ start)
    (hdec : Instruction.decode image start = .error e) :
    read image start = ⟨[], .unreadable e⟩ := by
  rw [read, if_neg h]
  split
  · rename_i e' he
    obtain rfl : e = e' := Except.error.inj (hdec.symm.trans he)
    rfl
  · rename_i i hi
    cases hdec.symm.trans hi

theorem read_of_ok {image : ByteArray} {start : Nat} {i : Instruction}
    (hdec : Instruction.decode image start = .ok i) :
    read image start =
      ⟨i :: (read image (start + i.length)).instructions,
        (read image (start + i.length)).ending⟩ := by
  rw [read, if_neg (Instruction.not_size_le_of_decode hdec)]
  split
  · rename_i e he
    cases hdec.symm.trans he
  · rename_i i' hi
    obtain rfl : i = i' := Except.ok.inj (hdec.symm.trans hi)
    rfl

/-- Walk a list of instructions while fewer than `target` samples exist. -/
def planFrom (cycles target : Nat) (ending : ScoreEnd) : Nat → List Instruction → Plan
  | rendered, [] =>
    .halt (if target ≤ rendered then .complete else .fault (ending.fault rendered target))
  | rendered, i :: rest =>
    if target ≤ rendered then .halt .complete
    else
      match i.command with
      | .write byte => (planFrom cycles target ending rendered rest).after i [.write byte]
      | .wait samples =>
        let count := min samples (target - rendered)
        (planFrom cycles target ending (rendered + count) rest).after i
          (DeviceEvent.rendering cycles count)
      | .stop => ⟨[], [i], .marker⟩

/-- The plan for a score when some samples exist already. -/
def plan (score : Score) (cycles target rendered : Nat) : Plan :=
  planFrom cycles target score.ending rendered score.instructions

theorem plan_of_le (score : Score) (cycles : Nat) {target rendered : Nat} (h : target ≤ rendered) :
    score.plan cycles target rendered = .halt .complete := by
  unfold plan
  cases score.instructions <;> simp only [planFrom, h, if_true]

theorem walked_prefix (score : Score) (cycles target rendered : Nat) :
    (score.plan cycles target rendered).walked <+: score.instructions := by
  obtain ⟨instructions, ending⟩ := score
  simp only [plan]
  induction instructions generalizing rendered with
  | nil => exact List.nil_prefix
  | cons i rest ih =>
      rw [planFrom]
      split
      · exact List.nil_prefix
      · split
        · exact List.prefix_cons_inj i |>.mpr (ih _)
        · exact List.prefix_cons_inj i |>.mpr (ih _)
        · exact List.prefix_cons_inj i |>.mpr List.nil_prefix

end Score

/-! ### Carrying out a plan -/

namespace Player

variable {σ : Type}

/-- The plan for what lies before a player. -/
def plan (p : Player σ) : Plan :=
  (Score.read p.image p.cursor).plan p.cyclesPerSample p.target p.samples.size

theorem plan_of_end {p : Player σ} (hdone : ¬ p.target ≤ p.samples.size)
    (hend : p.image.size ≤ p.cursor) :
    p.plan = .halt (.fault (.unexpectedEnd p.cursor p.samples.size p.target)) := by
  rw [plan, Score.read_of_end hend, Score.plan, Score.planFrom, if_neg hdone]
  rfl

theorem plan_of_error {p : Player σ} {e : Error} (hdone : ¬ p.target ≤ p.samples.size)
    (hend : ¬ p.image.size ≤ p.cursor) (hdec : Instruction.decode p.image p.cursor = .error e) :
    p.plan = .halt (.fault e) := by
  rw [plan, Score.read_of_error hend hdec, Score.plan, Score.planFrom, if_neg hdone]
  rfl

theorem plan_of_stop {p : Player σ} {i : Instruction} (hdone : ¬ p.target ≤ p.samples.size)
    (hdec : Instruction.decode p.image p.cursor = .ok i) (hstop : i.command = .stop) :
    p.plan = ⟨[], [i], .marker⟩ := by
  rw [plan, Score.read_of_ok hdec, Score.plan, Score.planFrom, if_neg hdone, hstop]

/-- What the device is told when a player executes a command. -/
def events (p : Player σ) : Command → List DeviceEvent
  | .write byte => [.write byte]
  | .wait samples => DeviceEvent.rendering p.cyclesPerSample (p.clamp samples)
  | .stop => []

variable [SoundDevice σ]

/-- A player that did what a plan says. -/
def carryOut (p : Player σ) (plan : Plan) : Player σ :=
  { p with
    device := DeviceEvent.replayAll p.device plan.events
    samples := p.samples ++ (DeviceEvent.heard p.device plan.events).toArray
    cursor := p.cursor + plan.length
    executed := p.executed + plan.walked.length
    time := p.time.advance plan.cycles }

theorem carryOut_halt (p : Player σ) (stop : Stop) : p.carryOut (.halt stop) = p := by
  have hsamples : p.samples ++ (DeviceEvent.heard p.device []).toArray = p.samples :=
    Array.append_empty
  simp only [carryOut, Plan.halt, hsamples]
  rfl

/-- Carrying out a plan can be cut after its first instruction. -/
theorem carryOut_after (p : Player σ) (plan : Plan) (i : Instruction) (events : List DeviceEvent) :
    p.carryOut (plan.after i events) = (p.carryOut ⟨events, [i], plan.stop⟩).carryOut plan := by
  simp only [carryOut, Plan.after, Plan.length, Plan.cycles, ChipTime.advance,
    DeviceEvent.replayAll_append, DeviceEvent.heard_append, ← List.append_toArray,
    Array.append_assoc, List.map_append, List.sum_append, List.map_cons, List.sum_cons,
    List.map_nil, List.sum_nil, List.length_cons, List.length_nil, Nat.add_assoc,
    Nat.add_comm, Nat.add_left_comm, Nat.zero_add]

/-- Executing an instruction is carrying out a plan of that instruction alone. -/
theorem execute_eq_carryOut (p : Player σ) (i : Instruction) (stop : Stop) (c : Command) :
    (p.step i.length).execute c = p.carryOut ⟨p.events c, [i], stop⟩ := by
  cases c with
  | write byte =>
      have hsamples : p.samples ++ (DeviceEvent.heard p.device [.write byte]).toArray = p.samples :=
        Array.append_empty
      simp only [carryOut, events, hsamples]
      rfl
  | wait samples =>
      have hcycles := DeviceEvent.sum_cycles_rendering p.cyclesPerSample (p.clamp samples)
      simp only [carryOut, events, Plan.cycles, hcycles, execute, wait,
        DeviceEvent.renderSamples_eq_replay]
      rfl
  | stop =>
      have hsamples : p.samples ++ (DeviceEvent.heard p.device []).toArray = p.samples :=
        Array.append_empty
      simp only [carryOut, events, hsamples]
      rfl

/-! ### One turn of the walk -/

theorem walk_of_error {p : Player σ} {e : Error} (hdone : ¬ p.target ≤ p.samples.size)
    (hend : ¬ p.image.size ≤ p.cursor) (hdec : Instruction.decode p.image p.cursor = .error e) :
    p.walk = (.fault e, p) := by
  rw [walk, if_neg hdone, if_neg hend]
  split
  · rename_i e' he
    obtain rfl : e = e' := Except.error.inj (hdec.symm.trans he)
    rfl
  · rename_i i hi
    cases hdec.symm.trans hi

theorem walk_of_ok {p : Player σ} {i : Instruction} (hdone : ¬ p.target ≤ p.samples.size)
    (hdec : Instruction.decode p.image p.cursor = .ok i) :
    p.walk = if i.command = .stop then (.marker, p.step i.length)
      else ((p.step i.length).execute i.command).walk := by
  rw [walk, if_neg hdone, if_neg (Instruction.not_size_le_of_decode hdec)]
  split
  · rename_i e he
    cases hdec.symm.trans he
  · rename_i i' hi
    obtain rfl : i = i' := Except.ok.inj (hdec.symm.trans hi)
    rfl

/-- Before a player whose next instruction is no end marker lies that instruction, and then what
lies before the player that executed it. -/
theorem plan_of_ok {p : Player σ} {i : Instruction} (hdone : ¬ p.target ≤ p.samples.size)
    (hdec : Instruction.decode p.image p.cursor = .ok i) (hstop : i.command ≠ .stop) :
    p.plan = ((p.step i.length).execute i.command).plan.after i (p.events i.command) := by
  rw [plan, Score.read_of_ok hdec, Score.plan, Score.planFrom, if_neg hdone]
  cases hc : i.command with
  | write byte => rfl
  | wait samples =>
      have hsize : ((p.step i.length).execute (.wait samples)).samples.size =
          p.samples.size + p.clamp samples :=
        SoundDevice.size_renderSamples ..
      rw [plan, hsize]
      rfl
  | stop => exact absurd hc hstop

/-! ### The walk -/

/-- **A player goes by the plan.**  From every state, the walk stops as the plan says, and leaves
the player where carrying out the plan does. -/
theorem walk_eq_carryOut (p : Player σ) : p.walk = (p.plan.stop, p.carryOut p.plan) := by
  -- the cases are the ways the walk goes on from `p`, with `p` past an instruction in the last
  induction p using walk.induct with
  | case1 p hdone =>
      rw [walk, if_pos hdone, plan, Score.plan_of_le _ _ hdone, carryOut_halt]
      rfl
  | case2 p hdone hend =>
      rw [walk, if_neg hdone, if_pos hend, plan_of_end hdone hend, carryOut_halt]
      rfl
  | case3 p hdone hend e hdec =>
      rw [walk_of_error hdone hend hdec, plan_of_error hdone hend hdec, carryOut_halt]
      rfl
  | case4 p hdone hend i hdec hstop =>
      have hexec := p.execute_eq_carryOut i .marker .stop
      rw [walk_of_ok hdone hdec, if_pos hstop, plan_of_stop hdone hdec hstop]
      exact congrArg (Stop.marker, ·) hexec
  | case5 p hdone hend i hdec hstop ih =>
      rw [walk_of_ok hdone hdec, if_neg hstop, ih, plan_of_ok hdone hdec hstop, carryOut_after,
        ← execute_eq_carryOut]
      rfl

/-- A run goes by the plan as well: its result is read off the player that carried the plan out. -/
theorem run_eq_carryOut (p : Player σ) :
    p.run =
      match p.plan.stop with
      | .complete => (.ok ((p.carryOut p.plan).rendering false),
          { p.carryOut p.plan with samples := #[] })
      | .marker => (.ok ((p.carryOut p.plan).rendering true),
          { p.carryOut p.plan with samples := #[] })
      | .fault e => (.error e, p.carryOut p.plan) := by
  rw [run, walk_eq_carryOut]
  cases p.plan.stop <;> rfl

theorem device_run (p : Player σ) :
    p.run.2.device = DeviceEvent.replayAll p.device p.plan.events := by
  rw [run_eq_carryOut]
  cases p.plan.stop <;> rfl

/-- The result of a first run is the one its plan states. -/
theorem result_run_start (image : ByteArray) (header : Header) (device : σ) :
    (start image header device).run.1 =
      (start image header device).plan.result (Chiptune.cyclesPerSample header.clock)
        (DeviceEvent.heard device (start image header device).plan.events) := by
  have hrendering : ∀ (plan : Plan) (marker : Bool),
      ((start image header device).carryOut plan).rendering marker =
        ⟨(DeviceEvent.heard device plan.events).toArray, Chiptune.cyclesPerSample header.clock,
          plan.cycles, plan.walked.length, marker⟩ := fun plan marker => by
    simp only [rendering, carryOut, start, ChipTime.advance, ChipTime.zero, Array.empty_append,
      Nat.zero_add]
    rfl
  rw [run_eq_carryOut, Plan.result]
  cases (start image header device).plan.stop with
  | complete => exact congrArg Except.ok (hrendering _ false)
  | marker => exact congrArg Except.ok (hrendering _ true)
  | fault e => rfl

/-- The samples of a first run that failed stay in the player. -/
theorem samples_run_start {image : ByteArray} {header : Header} {device : σ} {e : Error}
    (h : (start image header device).run.1 = .error e) :
    (start image header device).run.2.samples.toList =
      DeviceEvent.heard device (start image header device).plan.events := by
  rw [run_eq_carryOut] at h ⊢
  cases hs : (start image header device).plan.stop with
  | complete => rw [hs] at h; cases h
  | marker => rw [hs] at h; cases h
  | fault e' => exact congrArg Array.toList Array.empty_append

/-- What a recorder takes down in a first run is what the plan tells the device. -/
theorem events_run_start (image : ByteArray) (header : Header) :
    (start image header Recorder.empty).run.2.device.events.toList =
      (start image header Recorder.empty).plan.events := by
  rw [device_run]
  exact DeviceEvent.events_replayAll Recorder.empty _

/-- **The first run makes the calls of the plan.**  Read the instructions of an image once and walk
the list: on every device, the first run makes exactly the calls the plan writes down and gets the
samples those calls return, its result is the one the plan states, and the instructions counted as
executed begin the list.  A recorder takes down what the plan tells a device, and the run is the
replay of that record. -/
theorem run_start_eq_plan (image : ByteArray) (header : Header) (device : σ) :
    let score := Score.read image header.dataOffset
    let plan := score.plan (header.clock / 44100) header.totalSamples 0
    let told := DeviceCall.performAll (device, []) plan.calls
    let run := (start image header device).run
    let recorded := (start image header Recorder.empty).run
    let record := recorded.2.device.events.toList
    run.2.device = told.1 ∧
      run.1 = plan.result (header.clock / 44100) told.2 ∧
      (∀ e, run.1 = .error e → run.2.samples.toList = told.2) ∧
      plan.walked <+: score.instructions ∧
      record = plan.events ∧
      run.2.device = DeviceEvent.replayAll device record ∧
      run.1 = recorded.1.map
        fun r => { r with samples := (DeviceEvent.heard device record).toArray } := by
  intro score plan told run recorded record
  have htold : told = (DeviceEvent.replayAll device plan.events,
      DeviceEvent.heard device plan.events) := DeviceEvent.performAll_calls device [] plan.events
  have hrecord : record = plan.events := events_run_start image header
  have hdevice : run.2.device = DeviceEvent.replayAll device plan.events := device_run _
  have hresult : run.1 = plan.result (header.clock / 44100)
      (DeviceEvent.heard device plan.events) := result_run_start image header device
  refine ⟨?_, ?_, fun e he => ?_, score.walked_prefix _ _ _, hrecord, ?_, ?_⟩
  · rw [htold, hdevice]
  · rw [htold, hresult]
  · rw [htold]
    exact samples_run_start he
  · rw [hrecord, hdevice]
  · have hrecorded : recorded.1 = plan.result (header.clock / 44100)
        (DeviceEvent.heard Recorder.empty plan.events) :=
      result_run_start image header Recorder.empty
    rw [hrecord, hresult, hrecorded]
    exact plan.result_map _ _ _

/-- A run that stops at an opcode it does not know keeps the two samples it has. -/
theorem run_start_eq_plan_unreadable :
    let image : ByteArray := ⟨#[0x50, 0x90, 0x71, 0x00]⟩
    let header := { Header.fields image with clock := 705600, totalSamples := 5, dataOffset := 0 }
    let run := (start image header Chip.powerOn).run
    run.1 = .error (.unknownCommand 0x00 3) ∧ run.2.samples.toList = [8191, 0] := by
  intro image header run
  have hread : Score.read image 0 =
      ⟨[.busWrite 0x90, .shortWait 1], .unreadable (.unknownCommand 0x00 3)⟩ := by
    rw [Score.read_of_ok (i := .busWrite 0x90) rfl, Score.read_of_ok (i := .shortWait 1) rfl,
      Score.read_of_error (by decide) rfl]
    rfl
  have hplan : (Score.read image 0).plan 16 5 0 =
      ⟨[.write 0x90, .advance 16, .advance 16], [.busWrite 0x90, .shortWait 1],
        .fault (.unknownCommand 0x00 3)⟩ := by
    rw [hread]
    rfl
  have hcycles : header.clock / 44100 = 16 := by
    show 705600 / 44100 = 16
    rfl
  obtain ⟨-, hresult, hkept, -⟩ := run_start_eq_plan image header Chip.powerOn
  rw [hcycles] at hresult hkept
  have herror : run.1 = .error (.unknownCommand 0x00 3) := by
    refine hresult.trans ?_
    show ((Score.read image 0).plan 16 5 0).result 16 _ = _
    rw [hplan]
    rfl
  refine ⟨herror, (hkept _ herror).trans ?_⟩
  show (DeviceCall.performAll (Chip.powerOn, []) ((Score.read image 0).plan 16 5 0).calls).2 = _
  rw [hplan]
  decide

end Player

end Chiptune
