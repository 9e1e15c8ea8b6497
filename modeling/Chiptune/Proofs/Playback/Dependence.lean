import Chiptune.Proofs.Playback.Outcome
import Chiptune.Proofs.Playback.Waits

/-!
# Playback — Dependence

What a render depends on.  Of an image that is three things: how many cycles make a sample, the
declared length, and the commands up to the last one executed.  The other fields of the header, the
position of the commands in the image and the bytes behind the last executed command do not show.

The commands are taken out of the image, and the plan is made for them alone
(`Song.commandPlan`).  A render is what that plan states, with a failure as far along as the commands
begin in the image (`renderOn_eq_commandPlan`).  Two facts then say how little of the commands
matters.

* `planFrom_walked`: a plan that does not fail is the plan for the instructions it walked, whatever
  comes behind them.
* `read_append_of_unknown`: behind an opcode nobody knows, nothing is read.
-/

namespace Chiptune

open Instruction (Reads)

/-! ### Reading the same bytes -/

theorem getElem?_append_of_lt {data : ByteArray} (back : ByteArray) {k : Nat} (h : k < data.size) :
    (data ++ back)[k]? = data[k]? := by
  have hlt : k < (data ++ back).size := by
    rw [ByteArray.size_append]
    omega
  rw [getElem?_pos _ k hlt, getElem?_pos _ k h, ByteArray.getElem_append_left h]

namespace Instruction

/-- What is read up to a position depends on the bytes up to there. -/
theorem Reads.congr {data data' : ByteArray} {start stop : Nat} {is : List Instruction}
    (h : Reads data start is stop) (hsame : ∀ k < stop, data'[k]? = data[k]?) :
    Reads data' start is stop := by
  induction h with
  | nil => exact .nil _
  | @cons start stop i rest hdec t ih =>
      refine .cons (decode_eq_ok_iff.mpr ?_) (ih hsame)
      have hstop : start + i.length ≤ stop := by
        rw [t.stop_eq]
        exact Nat.le_add_right _ _
      rw [hasBytesAt_congr fun k hk => hsame (start + k) ?_]
      · exact decode_eq_ok_iff.mp hdec
      · rw [length_bytes] at hk
        omega

/-- An opcode nobody knows needs no byte behind it. -/
theorem decode_append_of_unknown {data : ByteArray} {position opcode offset : Nat}
    (back : ByteArray) (h : decode data position = .error (.unknownCommand opcode offset)) :
    decode (data ++ back) position = .error (.unknownCommand opcode offset) := by
  by_cases hlt : position < data.size
  · have hlt' : position < (data ++ back).size := by
      rw [ByteArray.size_append]
      omega
    rcases (decode_eq_error_iff hlt).mp h with ⟨hop, he⟩ | ⟨-, he⟩
    · refine (decode_eq_error_iff hlt').mpr (.inl ?_)
      rw [ByteArray.getElem_append_left hlt]
      exact ⟨hop, he⟩
    · cases he
  · rw [decode, dif_neg hlt] at h
    cases h

end Instruction

/-! ### Plans that look no further -/

namespace Score

/-- Behind an opcode nobody knows, nothing is read. -/
theorem read_append_of_unknown {data : ByteArray} {start opcode offset : Nat} (back : ByteArray)
    (h : (read data start).ending = .unreadable (.unknownCommand opcode offset)) :
    read (data ++ back) start = read data start := by
  obtain ⟨stop, hreads, ⟨-, hending⟩ | ⟨e, hlt, hdec, hending⟩⟩ := reads_read data start
  · cases hending.symm.trans h
  · obtain rfl := ScoreEnd.unreadable.inj (hending.symm.trans h)
    have hsize : ¬ (data ++ back).size ≤ stop := by
      rw [ByteArray.size_append]
      omega
    rw [read_of_reads (hreads.append back),
      read_of_error hsize (Instruction.decode_append_of_unknown back hdec), List.append_nil,
      ← hending]

variable {cycles target rendered : Nat} {ending : ScoreEnd} {is : List Instruction}

/-- A plan that does not fail is the plan for what it walked, whatever stands behind that. -/
theorem planFrom_walked
    (h : ∀ e, (planFrom cycles target ending rendered is).stop ≠ .fault e) (ending' : ScoreEnd)
    (rest : List Instruction) :
    planFrom cycles target ending' rendered
        ((planFrom cycles target ending rendered is).walked ++ rest) =
      planFrom cycles target ending rendered is := by
  induction is generalizing rendered with
  | nil =>
      by_cases hdone : target ≤ rendered
      · rw [planFrom_of_le cycles ending hdone]
        exact planFrom_of_le cycles ending' hdone _
      · rw [planFrom, if_neg hdone] at h
        exact absurd rfl (h _)
  | cons i is ih =>
      by_cases hdone : target ≤ rendered
      · rw [planFrom_of_le cycles ending hdone]
        exact planFrom_of_le cycles ending' hdone _
      · cases hc : i.command with
        | write byte =>
            rw [planFrom_write hdone hc] at h ⊢
            rw [Plan.after, List.cons_append, planFrom_write hdone hc, ih h]
            rfl
        | wait samples =>
            rw [planFrom_wait hdone hc] at h ⊢
            rw [Plan.after, List.cons_append, planFrom_wait hdone hc, ih h]
            rfl
        | stop =>
            rw [planFrom_stop hdone hc]
            exact planFrom_stop hdone hc

/-- A plan fails for what stands at the end of its score. -/
theorem planFrom_fault {e : Error}
    (h : (planFrom cycles target ending rendered is).stop = .fault e) :
    ∃ n, e = ending.fault n target := by
  induction is generalizing rendered with
  | nil =>
      rw [planFrom] at h
      split at h
      · cases h
      · exact ⟨rendered, (Stop.fault.inj h).symm⟩
  | cons i is ih =>
      by_cases hdone : target ≤ rendered
      · rw [planFrom_of_le cycles ending hdone] at h
        cases h
      · cases hc : i.command with
        | write byte =>
            rw [planFrom_write hdone hc] at h
            exact ih h
        | wait samples =>
            rw [planFrom_wait hdone hc] at h
            exact ih h
        | stop =>
            rw [planFrom_stop hdone hc] at h
            cases h

end Score

theorem Plan.result_moved (plan : Plan) (n cycles : Nat) (samples : List Int) :
    (plan.moved n).result cycles samples =
      (plan.result cycles samples).mapError (Error.moved n) := by
  obtain ⟨events, walked, stop⟩ := plan
  cases stop <;> rfl

/-- A failure that moves to one at an unknown opcode is one at an unknown opcode. -/
theorem Error.eq_unknown_of_moved {e : Error} {n opcode offset : Nat}
    (h : e.moved n = .unknownCommand opcode offset) :
    ∃ offset', e = .unknownCommand opcode offset' := by
  cases e <;> cases h
  exact ⟨_, rfl⟩

namespace Song

/-! ### The commands alone -/

/-- The plan for the commands of a song, taken out of the image. -/
def commandPlan (song : Song) : Plan :=
  (Score.read song.commands 0).plan (Chiptune.cyclesPerSample song.header.clock)
    song.header.totalSamples 0

theorem plan_eq_moved (song : Song) : song.plan = song.commandPlan.moved song.header.dataOffset := by
  rw [plan, Score.read_extract]
  exact Score.planFrom_moved _ _ _ _ _ _

variable {σ : Type} [SoundDevice σ]

/-- A render is what the plan for the commands states, and a failure is as far along as the commands
begin in the image. -/
theorem renderOn_eq_commandPlan (song : Song) (device : σ) :
    song.renderOn device =
      (song.commandPlan.result (Chiptune.cyclesPerSample song.header.clock)
        (DeviceEvent.heard (SoundDevice.reset device) song.commandPlan.events)).mapError
          (Error.moved song.header.dataOffset) := by
  rw [renderOn_eq_result, plan_eq_moved, Plan.result_moved]
  rfl

theorem exists_stop_of_renderOn {song : Song} {device : σ} {e : Error}
    (h : song.renderOn device = .error e) :
    ∃ e', song.commandPlan.stop = .fault e' ∧ e = e'.moved song.header.dataOffset := by
  rw [renderOn_eq_commandPlan, Plan.result] at h
  cases hstop : song.commandPlan.stop with
  | complete | marker =>
      rw [hstop] at h
      cases h
  | fault e' =>
      rw [hstop] at h
      exact ⟨e', rfl, (Except.error.inj h).symm⟩

theorem stop_ne_of_renderOn {song : Song} {device : σ} {r : Rendering}
    (h : song.renderOn device = .ok r) (e : Error) : song.commandPlan.stop ≠ .fault e := by
  intro hstop
  rw [renderOn_eq_commandPlan, Plan.result, hstop] at h
  cases h

/-- How many bytes of the commands a render executes. -/
def played (song : Song) (device : σ) : Nat :=
  (song.player device).run.2.cursor - song.header.dataOffset

theorem played_eq (song : Song) (device : σ) : song.played device = song.commandPlan.length := by
  have hcursor : (song.player device).run.2.cursor =
      song.header.dataOffset + song.plan.length := by
    rw [Player.run_eq_carryOut]
    cases (song.player device).plan.stop <;> rfl
  rw [played, hcursor, Nat.add_sub_cancel_left, plan_eq_moved]
  rfl

/-- The walked instructions stand at the beginning of the commands. -/
theorem reads_walked (song : Song) :
    Reads song.commands 0 song.commandPlan.walked song.commandPlan.length := by
  rw [← Nat.zero_add song.commandPlan.length]
  exact Score.reads_walked _ _ _ _ _

/-! ### Two songs -/

section

variable {s₁ s₂ : Song}

/-- Songs with the same plan for their commands render the same, or fail alike. -/
theorem renderOn_of_commandPlan_eq
    (hclock : Chiptune.cyclesPerSample s₂.header.clock = Chiptune.cyclesPerSample s₁.header.clock)
    (hplan : s₂.commandPlan = s₁.commandPlan) (device : σ) :
    (∀ r, s₁.renderOn device = .ok r → s₂.renderOn device = .ok r) ∧
    ∀ e, s₁.renderOn device = .error e → ∃ e' : Error, e = e'.moved s₁.header.dataOffset ∧
      s₂.renderOn device = .error (e'.moved s₂.header.dataOffset) := by
  rw [renderOn_eq_commandPlan, renderOn_eq_commandPlan, hclock, hplan]
  generalize s₁.commandPlan.result _ _ = result
  cases result with
  | ok r => exact ⟨fun _ hr => hr, fun _ he => (nomatch he)⟩
  | error e =>
      refine ⟨fun _ hr => (nomatch hr), fun _ he => ⟨e, ?_, rfl⟩⟩
      exact (Except.error.inj he).symm

/-- The plan for the commands depends on the bytes it walks, if it does not fail. -/
theorem commandPlan_congr
    (hclock : Chiptune.cyclesPerSample s₂.header.clock = Chiptune.cyclesPerSample s₁.header.clock)
    (htotal : s₂.header.totalSamples = s₁.header.totalSamples)
    (hstop : ∀ e, s₁.commandPlan.stop ≠ .fault e)
    (hsame : ∀ k < s₁.commandPlan.length, s₂.commands[k]? = s₁.commands[k]?) :
    s₂.commandPlan = s₁.commandPlan := by
  rw [commandPlan, hclock, htotal, Score.plan, Score.read_of_reads (s₁.reads_walked.congr hsame)]
  exact Score.planFrom_walked hstop _ _

/-- The plan for the commands looks at nothing behind an opcode nobody knows. -/
theorem commandPlan_append_of_unknown
    (hclock : Chiptune.cyclesPerSample s₂.header.clock = Chiptune.cyclesPerSample s₁.header.clock)
    (htotal : s₂.header.totalSamples = s₁.header.totalSamples) {back : ByteArray}
    (hcommands : s₂.commands = s₁.commands ++ back) {opcode offset : Nat}
    (hstop : s₁.commandPlan.stop = .fault (.unknownCommand opcode offset)) :
    s₂.commandPlan = s₁.commandPlan := by
  obtain ⟨n, hfault⟩ := Score.planFrom_fault hstop
  have hending : (Score.read s₁.commands 0).ending =
      .unreadable (.unknownCommand opcode offset) := by
    cases hend : (Score.read s₁.commands 0).ending with
    | outOfData _ =>
        rw [hend] at hfault
        cases hfault
    | unreadable e =>
        rw [hend] at hfault
        exact congrArg _ hfault.symm
  rw [commandPlan, hcommands, Score.read_append_of_unknown back hending, hclock, htotal]
  rfl

end

/-- **What a render depends on.**  Two songs have as many cycles in a sample and the same declared
length.

If the first renders, the second renders to the same as soon as its commands have the same bytes
where the first executed any.

Let the commands of the second be those of the first with anything behind them.  If the first
renders, the second renders to the same.  If the first fails at an opcode nobody knows, the second
fails at the same opcode, as far along in its commands.  If there is nothing behind, that holds of
every failure. -/
theorem renderOn_depends {contents₁ contents₂ : ByteArray} {s₁ s₂ : Song}
    (h₁ : ofBytes contents₁ = .ok s₁) (h₂ : ofBytes contents₂ = .ok s₂)
    (hclock : Header.maskClock (leWord s₂.image 0x0C 4) / 44100 =
      Header.maskClock (leWord s₁.image 0x0C 4) / 44100)
    (htotal : leWord s₂.image 0x18 4 = leWord s₁.image 0x18 4) (device : σ) :
    (∀ r, s₁.renderOn device = .ok r →
      (∀ k < s₁.played device, s₂.commands[k]? = s₁.commands[k]?) →
        s₂.renderOn device = .ok r) ∧
    ∀ back, s₂.commands = s₁.commands ++ back →
      (∀ r, s₁.renderOn device = .ok r → s₂.renderOn device = .ok r) ∧
      ∀ e, s₁.renderOn device = .error e →
        (∃ opcode offset, e = .unknownCommand opcode offset) ∨ back = .empty →
          ∃ e' : Error, e = e'.moved s₁.header.dataOffset ∧
            s₂.renderOn device = .error (e'.moved s₂.header.dataOffset) := by
  have hclock' : Chiptune.cyclesPerSample s₂.header.clock =
      Chiptune.cyclesPerSample s₁.header.clock := by
    rw [header_eq_fields h₁, header_eq_fields h₂]
    exact hclock
  have htotal' : s₂.header.totalSamples = s₁.header.totalSamples := by
    rw [header_eq_fields h₁, header_eq_fields h₂]
    exact htotal
  have hok : ∀ r, s₁.renderOn device = .ok r →
      (∀ k < s₁.played device, s₂.commands[k]? = s₁.commands[k]?) →
        s₂.renderOn device = .ok r := by
    intro r hr hsame
    rw [played_eq] at hsame
    have hplan := commandPlan_congr hclock' htotal' (stop_ne_of_renderOn hr) hsame
    exact (renderOn_of_commandPlan_eq hclock' hplan device).1 r hr
  refine ⟨hok, fun back hcommands => ⟨fun r hr => hok r hr fun k hk => ?_, ?_⟩⟩
  · -- what was executed lies inside the commands of the first song
    have hin : k < s₁.commands.size := by
      rw [played_eq] at hk
      exact Nat.lt_of_lt_of_le hk (s₁.reads_walked.stop_le (Nat.zero_le _))
    rw [hcommands, getElem?_append_of_lt back hin]
  · intro e he hbehind
    obtain ⟨e', hstop, rfl⟩ := exists_stop_of_renderOn he
    have hplan : s₂.commandPlan = s₁.commandPlan := by
      rcases hbehind with ⟨opcode, offset, hunknown⟩ | rfl
      · obtain ⟨offset', rfl⟩ := Error.eq_unknown_of_moved hunknown
        exact commandPlan_append_of_unknown hclock' htotal' hcommands hstop
      · rw [ByteArray.append_empty] at hcommands
        rw [commandPlan, hcommands, hclock', htotal']
        rfl
    exact (renderOn_of_commandPlan_eq hclock' hplan device).2 _ he

/-- Another version, tag position, rate, feedback and width, another clock with as many cycles in a
sample, two bytes before the commands and one behind them: the failure is two bytes further on. -/
theorem renderOn_depends_other_header :
    let image₁ : ByteArray := ⟨#[
      0x56, 0x67, 0x6D, 0x20, 0, 0, 0, 0, 0, 0, 0, 0, 0x99, 0x9E, 0x36, 0,
      0, 0, 0, 0, 0, 0, 0, 0, 3, 0, 0, 0, 0, 0, 0, 0,
      0, 0, 0, 0, 0, 0, 0, 0, 0, 0, 0, 0, 0, 0, 0, 0,
      0, 0, 0, 0, 0, 0, 0, 0, 0, 0, 0, 0, 0, 0, 0, 0,
      0x50, 0x90, 0x70, 0xFF]⟩
    let image₂ : ByteArray := ⟨#[
      0x56, 0x67, 0x6D, 0x20, 0x43, 0, 0, 0, 0x50, 0x01, 0, 0, 0x84, 0x81, 0x36, 0x40,
      0, 0, 0, 0, 5, 0, 0, 0, 3, 0, 0, 0, 0, 0, 0, 0,
      0, 0, 0, 0, 60, 0, 0, 0, 3, 0, 15, 0, 0, 0, 0, 0,
      0, 0, 0, 0, 0x0E, 0, 0, 0, 0, 0, 0, 0, 0, 0, 0, 0,
      0xAA, 0xBB, 0x50, 0x90, 0x70, 0xFF, 0x62]⟩
    let song (image : ByteArray) : Song := ⟨Header.fields image, image⟩
    ofBytes image₁ = .ok (song image₁) ∧ ofBytes image₂ = .ok (song image₂) ∧
      (song image₁).render = .error (.unknownCommand 0xFF 0x43) ∧
      (song image₂).render = .error (.unknownCommand 0xFF 0x45) := by
  intro image₁ image₂ song
  have hdeclares₁ : Header.Declares image₁ 3579545 3 0x40 :=
    ⟨by decide, by decide, ⟨by decide, 0, by decide, by decide⟩, ⟨by decide, by decide⟩,
      0, by decide, by decide, rfl⟩
  have hdeclares₂ : Header.Declares image₂ 3572100 3 0x42 :=
    ⟨by decide, by decide, ⟨by decide, 1, by decide, by decide⟩, ⟨by decide, by decide⟩,
      0x0E, by decide, by decide, rfl⟩
  have h₁ : ofBytes image₁ = .ok (song image₁) :=
    ofBytes_of_declares hdeclares₁ (by decide) (by decide)
  have h₂ : ofBytes image₂ = .ok (song image₂) :=
    ofBytes_of_declares hdeclares₂ (by decide) (by decide)
  have hreads : Reads image₁ 0x40 [.busWrite 0x90, .shortWait 0] 0x43 :=
    .cons (Instruction.decode_eq_ok_iff.mpr (by decide))
      (.cons (Instruction.decode_eq_ok_iff.mpr (by decide)) (.nil _))
  have hread : Score.read image₁ 0x40 =
      ⟨[.busWrite 0x90, .shortWait 0], .unreadable (.unknownCommand 0xFF 0x43)⟩ := by
    rw [Score.read_of_reads hreads, Score.read_of_error (by decide) rfl]
    rfl
  have hplan : (song image₁).plan =
      ⟨[.write 0x90, .advance 81], [.busWrite 0x90, .shortWait 0],
        .fault (.unknownCommand 0xFF 0x43)⟩ := by
    rw [plan, hdeclares₁.dataOffset_fields, hdeclares₁.totalSamples_fields,
      hdeclares₁.clock_fields, hread]
    rfl
  have hfirst : (song image₁).render = .error (.unknownCommand 0xFF 0x43) := by
    rw [render, renderOn_eq_result, hplan]
    rfl
  have hcommands : (song image₂).commands = (song image₁).commands ++ ⟨#[0x62]⟩ := by
    rw [commands, commands, hdeclares₁.dataOffset_fields, hdeclares₂.dataOffset_fields]
    decide
  obtain ⟨-, hbehind⟩ := renderOn_depends h₁ h₂ (by decide) (by decide) Chip.powerOn
  obtain ⟨e, he, hsecond⟩ := (hbehind _ hcommands).2 _ hfirst (.inl ⟨_, _, rfl⟩)
  obtain ⟨offset, rfl⟩ := Error.eq_unknown_of_moved he.symm
  rw [hdeclares₁.dataOffset_fields] at he
  rw [hdeclares₂.dataOffset_fields] at hsecond
  obtain ⟨-, hoffset⟩ := Error.unknownCommand.inj he
  obtain rfl : offset = 3 := by omega
  exact ⟨h₁, h₂, hfirst, hsecond⟩

end Song

end Chiptune
