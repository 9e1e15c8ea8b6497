import Chiptune.Proofs.Playback.Progress

/-!
# Playback — Waits

How a wait is written down does not matter.  Replace some waits among the commands of a song by
others of the same total, in any number and in any encoding, and the song renders the same.  Only the
count of executed instructions tells the two apart, and a failure behind the waits is as many bytes
further on as the waits have become longer.

* `planFrom_waits_congr`: the plans of both songs tell a device the same and stop alike, wherever
  the declared length falls.
* `renderOn_repartition`: so both renders are the same, or fail alike.
-/

namespace Chiptune

open Player (waitTotal)
open Instruction (Reads AllWaits encode)

theorem Error.moved_moved (e : Error) (m n : Nat) : (e.moved m).moved n = e.moved (n + m) := by
  cases e <;> simp only [moved, Nat.add_assoc]

theorem ScoreEnd.moved_moved (ending : ScoreEnd) (m n : Nat) :
    (ending.moved m).moved n = ending.moved (n + m) := by
  cases ending with
  | outOfData offset => exact congrArg outOfData (Nat.add_assoc n m offset).symm
  | unreadable e => exact congrArg unreadable (e.moved_moved m n)

/-- A stop with its failure so many bytes further on. -/
def Stop.moved (n : Nat) : Stop → Stop
  | .fault e => .fault (e.moved n)
  | stop => stop

namespace Plan

/-- Two plans that tell a device the same and stop alike. -/
def SoundsLike (a b : Plan) : Prop :=
  a.events = b.events ∧ a.stop = b.stop

theorem SoundsLike.after {a b : Plan} (h : a.SoundsLike b) (i : Instruction)
    (events : List DeviceEvent) : (a.after i events).SoundsLike (b.after i events) :=
  ⟨congrArg (events ++ ·) h.1, h.2⟩

/-- A plan that stops so many bytes further on. -/
def moved (plan : Plan) (n : Nat) : Plan :=
  { plan with stop := plan.stop.moved n }

/-- Plans that sound alike have the same result on a device, up to the instructions executed and up
to the place of a failure. -/
theorem SoundsLike.result {a b : Plan} (h : a.SoundsLike b) (m n cycles : Nat)
    (hear : List DeviceEvent → List Int) :
    (∃ r executed, (a.moved m).result cycles (hear (a.moved m).events) = .ok r ∧
        (b.moved n).result cycles (hear (b.moved n).events) =
          .ok { r with executed := executed }) ∨
      ∃ e : Error, (a.moved m).result cycles (hear (a.moved m).events) = .error (e.moved m) ∧
        (b.moved n).result cycles (hear (b.moved n).events) = .error (e.moved n) := by
  obtain ⟨events, walked, stop⟩ := a
  obtain ⟨_, walked', _⟩ := b
  obtain ⟨rfl, rfl⟩ := h
  cases stop with
  | complete => exact .inl ⟨_, walked'.length, rfl, rfl⟩
  | marker => exact .inl ⟨_, walked'.length, rfl, rfl⟩
  | fault e => exact .inr ⟨e, rfl, rfl⟩

end Plan

namespace Score

variable (cycles target : Nat)

/-- A score that ends further on has the same plan, up to the place of a failure. -/
theorem planFrom_moved (ending : ScoreEnd) (n rendered : Nat) (is : List Instruction) :
    planFrom cycles target (ending.moved n) rendered is =
      (planFrom cycles target ending rendered is).moved n := by
  induction is generalizing rendered with
  | nil =>
      rw [planFrom, planFrom]
      split
      · rfl
      · cases ending <;> rfl
  | cons i rest ih =>
      rw [planFrom, planFrom]
      split
      · rfl
      · cases i.command with
        | write byte =>
            simp only [ih]
            rfl
        | wait samples =>
            simp only [ih]
            rfl
        | stop => rfl

/-- What sounds alike from everywhere on sounds alike behind the same instructions. -/
theorem planFrom_append_congr {ending : ScoreEnd} {xs ys : List Instruction}
    (h : ∀ rendered, (planFrom cycles target ending rendered xs).SoundsLike
      (planFrom cycles target ending rendered ys)) (is : List Instruction) (rendered : Nat) :
    (planFrom cycles target ending rendered (is ++ xs)).SoundsLike
      (planFrom cycles target ending rendered (is ++ ys)) := by
  induction is generalizing rendered with
  | nil => exact h rendered
  | cons i rest ih =>
      rw [List.cons_append, List.cons_append, planFrom, planFrom]
      split
      · exact ⟨rfl, rfl⟩
      · cases i.command with
        | write byte => exact (ih _).after i _
        | wait samples => exact (ih _).after i _
        | stop => exact ⟨rfl, rfl⟩

/-- Waits of the same total sound alike. -/
theorem planFrom_waits_congr {waits₁ waits₂ : List Instruction} (h₁ : AllWaits waits₁)
    (h₂ : AllWaits waits₂) (htotal : waitTotal waits₁ = waitTotal waits₂) (ending : ScoreEnd)
    (rest : List Instruction) (rendered : Nat) :
    (planFrom cycles target ending rendered (waits₁ ++ rest)).SoundsLike
      (planFrom cycles target ending rendered (waits₂ ++ rest)) := by
  obtain ⟨hevents₁, hstop₁⟩ := planFrom_waits cycles target ending rest h₁ rendered
  obtain ⟨hevents₂, hstop₂⟩ := planFrom_waits cycles target ending rest h₂ rendered
  rw [htotal] at hevents₁ hstop₁
  exact ⟨hevents₁.trans hevents₂.symm, hstop₁.trans hstop₂.symm⟩

end Score

namespace Song

/-- The plan of a song with some waits among its commands. -/
theorem plan_of_waits {song : Song} {front back : ByteArray} {is waits : List Instruction}
    (hfront : Reads front 0 is front.size)
    (hcommands : song.commands = front ++ encode waits ++ back) :
    song.plan = (Score.planFrom (Chiptune.cyclesPerSample song.header.clock)
      song.header.totalSamples (Score.read back 0).ending 0
      (is ++ (waits ++ (Score.read back 0).instructions))).moved
        (song.header.dataOffset + (front.size + (encode waits).size)) := by
  have hwhole : Reads (front ++ encode waits) 0 (is ++ waits) (front ++ encode waits).size := by
    rw [ByteArray.size_append]
    exact (hfront.append _).trans ((Instruction.reads_encode waits).append_add front)
  rw [plan_of_reads hwhole hcommands, ScoreEnd.moved_moved, Score.planFrom_moved,
    List.append_assoc, ByteArray.size_append]

variable {σ : Type} [SoundDevice σ]

/-- **Waits can be written another way.**  Two songs have the same clock, length and start, and the
same commands but for some waits in the middle, which ask for the same total.  Either both render
the same, up to the count of executed instructions, or both fail alike, each as many bytes further
on as its waits take up. -/
theorem renderOn_repartition {s₁ s₂ : Song} (hclock : s₁.header.clock = s₂.header.clock)
    (htotal : s₁.header.totalSamples = s₂.header.totalSamples)
    (hstart : s₁.header.dataOffset = s₂.header.dataOffset)
    {front back : ByteArray} {is waits₁ waits₂ : List Instruction}
    (hfront : Reads front 0 is front.size) (h₁ : AllWaits waits₁) (h₂ : AllWaits waits₂)
    (hwaits : waitTotal waits₁ = waitTotal waits₂)
    (hcommands₁ : s₁.commands = front ++ encode waits₁ ++ back)
    (hcommands₂ : s₂.commands = front ++ encode waits₂ ++ back) (device : σ) :
    (∃ r executed, s₁.renderOn device = .ok r ∧
        s₂.renderOn device = .ok { r with executed := executed }) ∨
      ∃ e : Error, s₁.renderOn device = .error (e.moved (encode waits₁).size) ∧
        s₂.renderOn device = .error (e.moved (encode waits₂).size) := by
  have hlike := Score.planFrom_append_congr (Chiptune.cyclesPerSample s₂.header.clock)
    s₂.header.totalSamples (fun rendered => Score.planFrom_waits_congr _ _ h₁ h₂ hwaits
      (Score.read back 0).ending (Score.read back 0).instructions rendered) is 0
  have hplan₁ := plan_of_waits hfront hcommands₁
  have hplan₂ := plan_of_waits hfront hcommands₂
  rw [hclock, htotal, hstart] at hplan₁
  have hmoved : ∀ (e : Error) (waits : List Instruction),
      e.moved (s₂.header.dataOffset + (front.size + (encode waits).size)) =
        (e.moved (s₂.header.dataOffset + front.size)).moved (encode waits).size := by
    intro e waits
    rw [Error.moved_moved, ← Nat.add_assoc, Nat.add_comm]
  rw [renderOn_eq_result, renderOn_eq_result, hclock, hplan₁, hplan₂]
  rcases hlike.result _ _ _ (DeviceEvent.heard (SoundDevice.reset device)) with
    hok | ⟨e, he₁, he₂⟩
  · exact .inl hok
  · rw [hmoved] at he₁ he₂
    exact .inr ⟨_, he₁, he₂⟩

/-- Two samples at once, or one by one with an empty wait between: what stands behind is out of
reach in both songs, four bytes further on in the second. -/
theorem renderOn_repartition_empty_wait :
    let song (image : ByteArray) : Song :=
      ⟨{ Header.fields image with clock := 705600, totalSamples := 5, dataOffset := 0 }, image⟩
    (song ⟨#[0x50, 0x90, 0x71, 0x00]⟩).render = .error (.unknownCommand 0x00 3) ∧
      (song ⟨#[0x50, 0x90, 0x70, 0x61, 0, 0, 0x70, 0x00]⟩).render =
        .error (.unknownCommand 0x00 7) := by
  intro song
  let song₁ := song ⟨#[0x50, 0x90, 0x71, 0x00]⟩
  let song₂ := song ⟨#[0x50, 0x90, 0x70, 0x61, 0, 0, 0x70, 0x00]⟩
  let front : ByteArray := ⟨#[0x50, 0x90]⟩
  let back : ByteArray := ⟨#[0x00]⟩
  let once : List Instruction := [.shortWait 1]
  let twice : List Instruction := [.shortWait 0, .wait 0 0, .shortWait 0]
  have hfront : Reads front 0 [.busWrite 0x90] front.size := .cons rfl (.nil _)
  have honce : AllWaits once := by simp [once, AllWaits, Instruction.command]
  have htwice : AllWaits twice := by simp [twice, AllWaits, Instruction.command]
  have hcommands₁ : song₁.commands = front ++ encode once ++ back := by decide
  have hcommands₂ : song₂.commands = front ++ encode twice ++ back := by decide
  have hread : Score.read ⟨#[0x50, 0x90, 0x71, 0x00]⟩ 0 =
      ⟨[.busWrite 0x90, .shortWait 1], .unreadable (.unknownCommand 0x00 3)⟩ := by
    rw [Score.read_of_ok (i := .busWrite 0x90) rfl, Score.read_of_ok (i := .shortWait 1) rfl,
      Score.read_of_error (by decide) rfl]
    rfl
  have hfirst : song₁.render = .error (.unknownCommand 0x00 3) := by
    rw [render, renderOn_eq_result, plan]
    simp only [song₁, song]
    rw [hread]
    rfl
  refine ⟨hfirst, ?_⟩
  have hpair := @renderOn_repartition Chip _ song₁ song₂ rfl rfl rfl front back _ once twice hfront
    honce htwice rfl hcommands₁ hcommands₂ Chip.powerOn
  rcases hpair with ⟨r, _, hr, -⟩ | ⟨e, he₁, he₂⟩
  · cases hfirst.symm.trans hr
  · have he : Error.unknownCommand 0x00 3 = e.moved 1 := Except.error.inj (hfirst.symm.trans he₁)
    rw [render, he₂]
    cases e with
    | unknownCommand opcode offset =>
        have hinj : 0x00 = opcode ∧ 3 = 1 + offset := Error.unknownCommand.inj he
        obtain ⟨rfl, hoffset⟩ := hinj
        obtain rfl : offset = 2 := by omega
        rfl
    | _ => cases he

end Song

end Chiptune
