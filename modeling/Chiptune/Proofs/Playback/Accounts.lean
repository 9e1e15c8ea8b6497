import Chiptune.Proofs.Device.Tape
import Chiptune.Proofs.Playback.Outcome

/-!
# Playback — Accounts

The books of a player over any number of runs.  Four counts are kept while an image is played: the
samples held, the cycles given to the device, the position in the image and the instructions
executed.  A run that fails stops between two instructions and keeps all four; a run that finishes
hands its samples out and keeps the other three.  So the counts agree with each other and with what
the device was told at every moment, whatever runs came before.

* `turns`, `runs`: a moment is some turns of a walk, after some runs.
* `Accounts`: what the books say, against the instructions read from the start of the commands on
  and against the tape of the device (`Tells`).
* `Accounts.execute`, `Accounts.handOut`: one instruction keeps the books, and so does handing out.
* `runs_accounts`: so they are kept from the start on, at every moment of every run.

The walk is cut into turns because the books are to be right inside a run too.  A turn reads at least
one byte, so there are no more turns than bytes (`turns_eq_walk`).
-/

namespace Chiptune

open DeviceEvent (readings readings_append readings_rendering)
open Instruction (Reads)
open Player (waitTotal)

/-! ### What a device is told -/

/-- Some instructions, each once and in order, tell a device these events.  A wait tells it to
render as many samples as it asks for, or fewer. -/
inductive Instruction.Tells (cycles : Nat) : List Instruction → List DeviceEvent → Prop where
  | nil : Tells cycles [] []
  | write {is : List Instruction} {events : List DeviceEvent} {i : Instruction} {byte : UInt8}
      (t : Tells cycles is events) (h : i.command = .write byte) :
      Tells cycles (is ++ [i]) (events ++ [.write byte])
  | wait {is : List Instruction} {events : List DeviceEvent} {i : Instruction}
      {samples count : Nat} (t : Tells cycles is events) (h : i.command = .wait samples)
      (hcount : count ≤ samples) :
      Tells cycles (is ++ [i]) (events ++ DeviceEvent.rendering cycles count)
  | stop {is : List Instruction} {events : List DeviceEvent} {i : Instruction}
      (t : Tells cycles is events) (h : i.command = .stop) : Tells cycles (is ++ [i]) events

namespace Instruction

/-- A byte of the commands stands for no more samples than a byte of the longest wait. -/
theorem pause_le (i : Instruction) : i.pause ≤ 21845 * i.length := by
  cases i with
  | wait low high =>
      have hlow := low.toNat_lt
      have hhigh := high.toNat_lt
      show low.toNat + 256 * high.toNat ≤ 21845 * 3
      omega
  | shortWait extra =>
      show extra.val + 1 ≤ 21845 * 1
      omega
  | busWrite _ => exact Nat.zero_le _
  | waitNtscFrame | waitPalFrame | stop => decide

theorem waitTotal_append (is js : List Instruction) :
    waitTotal (is ++ js) = waitTotal is + waitTotal js := by
  simp only [waitTotal_eq_sum, List.map_append, List.sum_append]

theorem waitTotal_le (is : List Instruction) :
    waitTotal is ≤ 21845 * (is.map Instruction.length).sum := by
  induction is with
  | nil => exact Nat.zero_le _
  | cons i rest ih =>
      have hi := i.pause_le
      rw [waitTotal_cons, List.map_cons, List.sum_cons]
      omega

theorem length_le_sum_length (is : List Instruction) :
    is.length ≤ (is.map Instruction.length).sum := by
  induction is with
  | nil => exact Nat.zero_le _
  | cons i rest ih =>
      have hpos := i.length_pos
      rw [List.length_cons, List.map_cons, List.sum_cons]
      omega

/-- A device is not told to give more samples than the waits ask for. -/
theorem Tells.readings_le {cycles : Nat} {is : List Instruction} {events : List DeviceEvent}
    (h : Tells cycles is events) : readings events ≤ waitTotal is := by
  induction h with
  | nil => exact Nat.zero_le _
  | write _ _ ih =>
      rw [readings_append, waitTotal_append]
      exact Nat.le_trans ih (Nat.le_add_right _ _)
  | wait _ h hcount ih =>
      rw [readings_append, readings_rendering, waitTotal_append, waitTotal_cons, pause_of_wait h]
      exact Nat.add_le_add ih (Nat.le_trans hcount (Nat.le_add_right _ _))
  | stop _ _ ih =>
      rw [waitTotal_append]
      exact Nat.le_trans ih (Nat.le_add_right _ _)

end Instruction

open Instruction (Tells)

namespace Player

variable {σ : Type}

/-! ### What a command tells the device -/

/-- A player that is not past the declared length does not get past it. -/
theorem readings_events_le (p : Player σ) (c : Command) (h : p.samples.size ≤ p.target) :
    p.samples.size + readings (p.events c) ≤ p.target := by
  cases c with
  | write _ | stop => exact h
  | wait samples =>
      rw [events, readings_rendering, clamp]
      omega

theorem cycles_events (p : Player σ) (c : Command) :
    ((p.events c).map DeviceEvent.cycles).sum = p.cyclesPerSample * readings (p.events c) := by
  cases c with
  | write _ | stop => rfl
  | wait samples =>
      rw [events, DeviceEvent.sum_cycles_rendering, readings_rendering, Nat.mul_comm]

variable [SoundDevice σ]

/-! ### Turns and runs -/

/-- The player after at most so many turns of its walk. -/
def turns : Nat → Player σ → Player σ
  | 0, p => p
  | n + 1, p =>
    if p.target ≤ p.samples.size then p
    else
      match Instruction.decode p.image p.cursor with
      | .error _ => p
      | .ok i =>
        if i.command = .stop then p.step i.length
        else turns n ((p.step i.length).execute i.command)

/-- The results of so many runs, first to last, and the player after them. -/
def runs (p : Player σ) : Nat → List (Except Error Rendering) × Player σ
  | 0 => ([], p)
  | n + 1 => ((p.runs n).1 ++ [(p.runs n).2.run.1], (p.runs n).2.run.2)

/-- The samples a run hands out. -/
def handed : Except Error Rendering → Nat
  | .ok r => r.samples.size
  | .error _ => 0

/-- The samples some runs hand out. -/
def handedOut (results : List (Except Error Rendering)) : Nat :=
  (results.map handed).sum

/-- Either no turn is left, or an instruction is executed and the walk ends or goes on behind it. -/
theorem turns_succ_cases (n : Nat) (p : Player σ) :
    p.turns (n + 1) = p ∨
      ∃ i, Instruction.decode p.image p.cursor = .ok i ∧
        (p.turns (n + 1) = (p.step i.length).execute i.command ∨
          p.turns (n + 1) = ((p.step i.length).execute i.command).turns n) := by
  rw [turns]
  split
  · exact .inl rfl
  · split
    · exact .inl rfl
    · rename_i i hdec
      refine .inr ⟨i, hdec, ?_⟩
      split
      · rename_i hstop
        rw [hstop]
        exact .inl rfl
      · exact .inr rfl

/-- There are no more turns in a walk than bytes in front of the player. -/
theorem turns_eq_walk {p : Player σ} {n : Nat} (h : p.image.size - p.cursor ≤ n) :
    p.turns n = p.walk.2 := by
  induction p using walk.induct generalizing n with
  | case1 p hdone =>
      rw [walk, if_pos hdone]
      cases n with
      | zero => rfl
      | succ n => rw [turns, if_pos hdone]
  | case2 p hdone hend =>
      rw [walk, if_neg hdone, if_pos hend]
      cases n with
      | zero => rfl
      | succ n => rw [turns, if_neg hdone, Instruction.decode, dif_neg (Nat.not_lt.mpr hend)]
  | case3 p hdone hend e hdec =>
      rw [walk_of_error hdone hend hdec]
      cases n with
      | zero => rfl
      | succ n => rw [turns, if_neg hdone, hdec]
  | case4 p hdone hend i hdec hstop =>
      obtain ⟨n, rfl⟩ : ∃ k, n = k + 1 := ⟨n - 1, by omega⟩
      rw [walk_of_ok hdone hdec, if_pos hstop, turns, if_neg hdone, hdec]
      exact if_pos hstop
  | case5 p hdone hend i hdec hstop ih =>
      have hpos := i.length_pos
      obtain ⟨n, rfl⟩ : ∃ k, n = k + 1 := ⟨n - 1, by omega⟩
      rw [walk_of_ok hdone hdec, if_neg hstop, turns, if_neg hdone, hdec]
      refine (if_neg hstop).trans (ih ?_)
      rw [image_execute, cursor_execute]
      show p.image.size - (p.cursor + i.length) ≤ n
      omega

theorem cursor_le_turns (p : Player σ) (n : Nat) : p.cursor ≤ (p.turns n).cursor := by
  induction n generalizing p with
  | zero => exact Nat.le_refl _
  | succ n ih =>
      rcases turns_succ_cases n p with h | ⟨i, -, h | h⟩
      · rw [h]
      · rw [h, cursor_execute]
        exact Nat.le_add_right _ _
      · rw [h]
        refine Nat.le_trans ?_ (ih _)
        rw [cursor_execute]
        exact Nat.le_add_right _ _

/-- From turn to turn the position does not go back. -/
theorem cursor_turns_le (p : Player σ) (n k : Nat) :
    (p.turns n).cursor ≤ (p.turns (n + k)).cursor := by
  induction n generalizing p with
  | zero =>
      rw [Nat.zero_add]
      exact p.cursor_le_turns k
  | succ n ih =>
      rw [Nat.succ_add, turns, turns]
      split
      · exact Nat.le_refl _
      · split
        · exact Nat.le_refl _
        · split
          · exact Nat.le_refl _
          · exact ih _

theorem cursor_run (p : Player σ) : p.run.2.cursor = p.walk.2.cursor := by
  unfold run
  split <;> rename_i h <;> rw [h]

theorem size_samples_carryOut (p : Player σ) (plan : Plan) :
    (p.carryOut plan).samples.size = p.samples.size + readings plan.events := by
  rw [← DeviceEvent.length_heard p.device]
  exact Array.size_append

/-! ### A player whose device is on tape -/

theorem tape_carryOut (p : Player (Taped σ)) (plan : Plan) :
    (p.carryOut plan).device.tape = p.device.tape ++ plan.events :=
  p.device.tape_replayAll plan.events

/-- The player without the tape. -/
def untaped (p : Player (Taped σ)) : Player σ :=
  { p with device := p.device.device }

theorem untaped_carryOut (p : Player (Taped σ)) (plan : Plan) :
    (p.carryOut plan).untaped = p.untaped.carryOut plan := by
  simp only [carryOut, untaped, Taped.device_replayAll, Taped.heard_taped]

theorem untaped_execute (p : Player (Taped σ)) (i : Instruction) :
    ((p.step i.length).execute i.command).untaped =
      (p.untaped.step i.length).execute i.command := by
  rw [p.execute_eq_carryOut i .marker, untaped_carryOut, p.untaped.execute_eq_carryOut i .marker]
  rfl

theorem untaped_turns (p : Player (Taped σ)) (n : Nat) :
    (p.turns n).untaped = p.untaped.turns n := by
  induction n generalizing p with
  | zero => rfl
  | succ n ih =>
      rw [turns, turns]
      have himage : p.untaped.image = p.image := rfl
      have hcursor : p.untaped.cursor = p.cursor := rfl
      rw [himage, hcursor]
      by_cases hdone : p.target ≤ p.samples.size
      · rw [if_pos hdone]
        exact (if_pos hdone).symm
      · rw [if_neg hdone]
        refine Eq.trans ?_ (if_neg hdone).symm
        split
        · rfl
        · rename_i i hdec
          split
          · rfl
          · rw [ih, untaped_execute]

/-- A run has the same result on a device that is on tape, and leaves the device alike. -/
theorem untaped_run (p : Player (Taped σ)) :
    p.run.1 = p.untaped.run.1 ∧ p.run.2.untaped = p.untaped.run.2 := by
  have hplan : p.untaped.plan = p.plan := rfl
  rw [run_eq_carryOut, run_eq_carryOut, hplan, ← untaped_carryOut]
  cases p.plan.stop <;> exact ⟨rfl, rfl⟩

theorem untaped_runs (p : Player (Taped σ)) (m : Nat) :
    (p.runs m).1 = (p.untaped.runs m).1 ∧ (p.runs m).2.untaped = (p.untaped.runs m).2 := by
  induction m with
  | zero => exact ⟨rfl, rfl⟩
  | succ m ih =>
      obtain ⟨hresults, hplayer⟩ := ih
      obtain ⟨hresult, hnext⟩ := (p.runs m).2.untaped_run
      rw [hplayer] at hresult hnext
      exact ⟨congrArg₂ (· ++ [·]) hresults hresult, hnext⟩

/-! ### The books -/

/-- The books of a player of an image whose device is on tape, after it executed the instructions
`is` and handed out so many samples. -/
structure Accounts (image : ByteArray) (header : Header) (is : List Instruction) (handed : Nat)
    (p : Player (Taped σ)) : Prop where
  sameImage : p.image = image
  sameClock : p.clock = header.clock
  sameTarget : p.target = header.totalSamples
  /-- The declared length is not passed. -/
  held : p.samples.size ≤ header.totalSamples
  /-- The device gave the samples that were handed out and those that are held. -/
  given : readings p.device.tape = handed + p.samples.size
  /-- The device was given the cycles of as many samples. -/
  cycles : p.time.cycles = Chiptune.cyclesPerSample header.clock * readings p.device.tape
  /-- The executed instructions fill the bytes up to the cursor. -/
  reads : Reads image header.dataOffset is p.cursor
  tells : Tells (Chiptune.cyclesPerSample header.clock) is p.device.tape
  counted : p.executed = is.length

namespace Accounts

variable {image : ByteArray} {header : Header} {is : List Instruction} {handed : Nat}
  {p : Player (Taped σ)}

omit [SoundDevice σ] in
theorem start (image : ByteArray) (header : Header) (device : σ) :
    Accounts image header [] 0 (Player.start image header (Taped.new device)) where
  sameImage := rfl
  sameClock := rfl
  sameTarget := rfl
  held := Nat.zero_le _
  given := rfl
  cycles := rfl
  reads := .nil _
  tells := .nil
  counted := rfl

/-- An instruction keeps the books. -/
theorem execute {i : Instruction} (h : p.Accounts image header is handed)
    (hdec : Instruction.decode p.image p.cursor = .ok i) :
    ((p.step i.length).execute i.command).Accounts image header (is ++ [i]) handed := by
  have hcycles : p.cyclesPerSample = Chiptune.cyclesPerSample header.clock :=
    congrArg Chiptune.cyclesPerSample h.sameClock
  have hle := h.held
  rw [← h.sameTarget] at hle
  rw [p.execute_eq_carryOut i .marker]
  refine ⟨h.sameImage, h.sameClock, h.sameTarget, ?_, ?_, ?_, ?_, ?_, ?_⟩
  · rw [size_samples_carryOut, ← h.sameTarget]
    exact p.readings_events_le i.command hle
  · rw [tape_carryOut, size_samples_carryOut, readings_append, h.given, Nat.add_assoc]
  · rw [tape_carryOut, readings_append, Nat.mul_add, ← h.cycles, ← hcycles, ← cycles_events]
    rfl
  · rw [h.sameImage] at hdec
    exact h.reads.trans (.cons hdec (.nil _))
  · rw [tape_carryOut]
    cases hc : i.command with
    | write byte => exact .write h.tells hc
    | wait samples =>
        rw [events, hcycles]
        exact .wait h.tells hc (Nat.min_le_left _ _)
    | stop =>
        rw [events, List.append_nil]
        exact .stop h.tells hc
  · rw [List.length_append]
    exact congrArg (· + 1) h.counted

omit [SoundDevice σ] in
/-- Handing the samples out keeps the books. -/
theorem handOut (h : p.Accounts image header is handed) :
    { p with samples := #[] }.Accounts image header is (handed + p.samples.size) :=
  { h with
    held := Nat.zero_le _
    given := h.given }

/-- So do some turns of a walk, which execute some more instructions. -/
theorem turns (h : p.Accounts image header is handed) (n : Nat) :
    ∃ js, (p.turns n).Accounts image header (is ++ js) handed := by
  induction n generalizing p is with
  | zero => exact ⟨[], by rwa [List.append_nil]⟩
  | succ n ih =>
      rcases turns_succ_cases n p with hp | ⟨i, hdec, hp | hp⟩
      · rw [hp]
        exact ⟨[], by rwa [List.append_nil]⟩
      · rw [hp]
        exact ⟨[i], h.execute hdec⟩
      · obtain ⟨js, hjs⟩ := ih (h.execute hdec)
        rw [hp]
        rw [List.append_assoc] at hjs
        exact ⟨_, hjs⟩

theorem walk (h : p.Accounts image header is handed) :
    ∃ js, p.walk.2.Accounts image header (is ++ js) handed := by
  rw [← turns_eq_walk (Nat.le_refl _)]
  exact h.turns _

/-- A run keeps the books, whether it finishes or fails. -/
theorem run (h : p.Accounts image header is handed) :
    ∃ js, p.run.2.Accounts image header (is ++ js) (handed + Player.handed p.run.1) := by
  obtain ⟨js, hjs⟩ := h.walk
  refine ⟨js, ?_⟩
  unfold Player.run
  split
  case h_1 q hq | h_2 q hq =>
    rw [hq] at hjs
    exact hjs.handOut
  case h_3 e q hq =>
    rw [hq] at hjs
    exact hjs

/-- So do any number of runs. -/
theorem runs (image : ByteArray) (header : Header) (device : σ) (m : Nat) :
    let first := Player.start image header (Taped.new device)
    ∃ is, (first.runs m).2.Accounts image header is (handedOut (first.runs m).1) := by
  intro first
  induction m with
  | zero => exact ⟨[], Accounts.start image header device⟩
  | succ m ih =>
      obtain ⟨is, his⟩ := ih
      obtain ⟨js, hjs⟩ := his.run
      refine ⟨is ++ js, ?_⟩
      rw [Player.runs, handedOut, List.map_append, List.sum_append]
      exact hjs

/-! ### What the books say -/

omit [SoundDevice σ] in
theorem cursor_eq (h : p.Accounts image header is handed) :
    p.cursor = header.dataOffset + (is.map Instruction.length).sum :=
  h.reads.stop_eq

omit [SoundDevice σ] in
theorem cursor_le (h : p.Accounts image header is handed) (hstart : header.dataOffset < image.size) :
    p.cursor ≤ image.size :=
  h.reads.stop_le (Nat.le_of_lt hstart)

omit [SoundDevice σ] in
/-- Every executed instruction has a byte of its own. -/
theorem executed_le (h : p.Accounts image header is handed)
    (hstart : header.dataOffset < image.size) : p.executed ≤ image.size - header.dataOffset := by
  have hcursor := h.cursor_eq
  have hend := h.cursor_le hstart
  have hlength := Instruction.length_le_sum_length is
  rw [h.counted]
  omega

omit [SoundDevice σ] in
/-- The cycles of an image of at most 4 GiB fit a signed word of sixty-four bits. -/
theorem cycles_lt (h : p.Accounts image header is handed) (hstart : header.dataOffset < image.size)
    (hclock : header.clock < Nat.pow 2 32) (hsize : image.size ≤ Nat.pow 2 32) :
    p.time.cycles < Nat.pow 2 63 := by
  have hreadings : DeviceEvent.readings p.device.tape ≤ 21845 * image.size := by
    refine Nat.le_trans (Nat.le_trans h.tells.readings_le (Instruction.waitTotal_le is)) ?_
    have hcursor := h.cursor_eq
    have hend := h.cursor_le hstart
    omega
  have hword : Nat.pow 2 32 = 4294967296 := by decide
  rw [hword] at hclock hsize
  have hcycles : Chiptune.cyclesPerSample header.clock ≤ 97391 := by
    show header.clock / 44100 ≤ 97391
    omega
  have hsigned : 97391 * (21845 * 4294967296) < Nat.pow 2 63 := by decide
  rw [h.cycles]
  refine Nat.lt_of_le_of_lt (Nat.mul_le_mul hcycles ?_) hsigned
  omega

/-- A finished run states the cycles of all samples handed out so far. -/
theorem chipCycles {r : Rendering} (h : p.Accounts image header is handed)
    (hr : p.run.1 = .ok r) : r.chipCycles = r.cyclesPerSample * (handed + r.samples.size) := by
  obtain ⟨js, hjs⟩ := h.walk
  unfold Player.run at hr
  split at hr
  case h_1 q hq | h_2 q hq =>
    rw [hq] at hjs
    cases hr
    show q.time.cycles = Chiptune.cyclesPerSample q.clock * (handed + q.samples.size)
    rw [hjs.cycles, hjs.given, hjs.sameClock]
  case h_3 => cases hr

end Accounts

theorem handedOut_eq_zero {results : List (Except Error Rendering)}
    (h : ∀ r, Except.ok r ∉ results) : handedOut results = 0 := by
  refine List.sum_eq_zero fun count hcount => ?_
  obtain ⟨result, hresult, rfl⟩ := List.mem_map.mp hcount
  cases result with
  | ok r => exact absurd hresult (h r)
  | error e => rfl

/-- **The books balance.**  Play an image on any device, with a tape, and look at the player at any
moment: after some runs, whether they finished or failed, and some turns of the next walk.  The tape
changes nothing.

The player holds no more samples than declared.  The cycles it counts are those of every advance of
the device, and the device advanced once for every sample that was handed out by a run or is held.
For an image of at most 4 GiB the count fits a signed word of sixty-four bits.

The executed instructions are those read one after the other from the start of the commands up to
the cursor, they told the device what is on the tape, and there are as many as were counted.  The
cursor is behind them, does not go back, and stays inside the image; so no more instructions are
executed than there are bytes, and no walk takes more turns.

If the next run finishes, it states the cycles of all samples handed out with it; if no run finished
before, these are its own. -/
theorem runs_accounts (image : ByteArray) (header : Header)
    (hstart : header.dataOffset < image.size) (device : σ) (m n : Nat) :
    let first := Player.start image header (Taped.new device)
    let results := (first.runs m).1
    let before := (first.runs m).2
    let now := before.turns n
    (results = ((Player.start image header device).runs m).1 ∧
      now.untaped = ((Player.start image header device).runs m).2.turns n) ∧
    now.samples.size ≤ header.totalSamples ∧
    now.time.cycles = header.clock / 44100 * readings now.device.tape ∧
    readings now.device.tape = handedOut results + now.samples.size ∧
    (header.clock < Nat.pow 2 32 → image.size ≤ Nat.pow 2 32 →
      now.time.cycles < Nat.pow 2 63) ∧
    (∃ is, Reads image header.dataOffset is now.cursor ∧
      Tells (header.clock / 44100) is now.device.tape ∧
      now.cursor = header.dataOffset + (is.map Instruction.length).sum ∧
      now.executed = is.length) ∧
    now.cursor ≤ image.size ∧
    (∀ k, now.cursor ≤ (before.turns (n + k)).cursor) ∧
    now.cursor ≤ (first.runs (m + 1)).2.cursor ∧
    now.executed ≤ image.size - header.dataOffset ∧
    before.turns (image.size - header.dataOffset) = before.walk.2 ∧
    (∀ r, before.run.1 = .ok r →
      r.chipCycles = r.cyclesPerSample * (handedOut results + r.samples.size) ∧
      ((∀ r', Except.ok r' ∉ results) → r.chipCycles = r.samples.size * r.cyclesPerSample)) := by
  intro first results before now
  obtain ⟨is, hbefore⟩ := Accounts.runs image header device m
  obtain ⟨js, hnow⟩ := hbefore.turns n
  obtain ⟨hresults, hplayer⟩ := first.untaped_runs m
  refine ⟨⟨hresults, ?_⟩, hnow.held, hnow.cycles, hnow.given, hnow.cycles_lt hstart,
    ⟨is ++ js, hnow.reads, hnow.tells, hnow.cursor_eq, hnow.counted⟩, hnow.cursor_le hstart,
    before.cursor_turns_le n, ?_, hnow.executed_le hstart, ?_, fun r hr => ⟨?_, fun hfirst => ?_⟩⟩
  · rw [untaped_turns, hplayer]
    rfl
  · -- the end of the walk is some turns further on
    have hend : before.turns (n + (before.image.size - before.cursor)) = before.walk.2 :=
      turns_eq_walk (Nat.le_add_left _ _)
    have hrun : (first.runs (m + 1)).2.cursor = before.walk.2.cursor := before.cursor_run
    rw [hrun, ← hend]
    exact before.cursor_turns_le n _
  · refine turns_eq_walk ?_
    rw [hbefore.sameImage, hbefore.cursor_eq]
    omega
  · exact hbefore.chipCycles hr
  · rw [hbefore.chipCycles hr, handedOut_eq_zero hfirst, Nat.zero_add, Nat.mul_comm]

/-- The first run ends at a marker with one sample of the two declared.  Two turns into the second, a
wait for three samples was cut to two. -/
theorem runs_accounts_second_run :
    let image : ByteArray := ⟨#[0x50, 0x90, 0x70, 0x66, 0x50, 0x9F, 0x72, 0x00]⟩
    let header := { Header.fields image with clock := 705600, totalSamples := 2, dataOffset := 0 }
    let first := Player.start image header (Taped.new Chip.powerOn)
    let now := (first.runs 1).2.turns 2
    handedOut (first.runs 1).1 = 1 ∧ now.samples.size = 2 ∧ now.time.cycles = 16 * (1 + 2) ∧
      ∃ is, Reads image 0 is 7 ∧ is.length = 5 ∧
        Tells 16 is [.write 0x90, .advance 16, .write 0x9F, .advance 16, .advance 16] := by
  intro image header first now
  have hread : Score.read image 0 =
      ⟨.busWrite 0x90 :: .shortWait 0 :: .stop :: (Score.read image 4).instructions,
        (Score.read image 4).ending⟩ := by
    rw [Score.read_of_ok (i := .busWrite 0x90) rfl, Score.read_of_ok (i := .shortWait 0) rfl,
      Score.read_of_ok (i := .stop) rfl]
    rfl
  have hplan : first.plan =
      ⟨[.write 0x90, .advance 16], [.busWrite 0x90, .shortWait 0, .stop], .marker⟩ := by
    show (Score.read image 0).plan (705600 / 44100) 2 0 = _
    rw [hread]
    rfl
  have hrun : first.run = (.ok ((first.carryOut first.plan).rendering true),
      { first.carryOut first.plan with samples := #[] }) := by
    rw [run_eq_carryOut, hplan]
  have hone : handedOut (first.runs 1).1 = 1 := by
    show handedOut [first.run.1] = 1
    rw [hrun, hplan]
    rfl
  have hnow : now = { first.carryOut first.plan with samples := #[] }.turns 2 := by
    show first.run.2.turns 2 = _
    rw [hrun]
  rw [hplan] at hnow
  have hsize : now.samples.size = 2 := by
    rw [hnow]
    decide +kernel
  have hcursor : now.cursor = 7 := by
    rw [hnow]
    decide +kernel
  have hexecuted : now.executed = 5 := by
    rw [hnow]
    decide +kernel
  have htape : now.device.tape =
      [.write 0x90, .advance 16, .write 0x9F, .advance 16, .advance 16] := by
    rw [hnow]
    decide +kernel
  have hrate : header.clock / 44100 = 16 := by
    show 705600 / 44100 = 16
    rfl
  obtain ⟨-, -, hcycles, hgiven, -, ⟨is, hreads, htells, -, hcounted⟩, -⟩ :=
    runs_accounts image header (by decide) Chip.powerOn 1 2
  refine ⟨hone, hsize, ?_, is, hcursor ▸ hreads, hcounted.symm.trans hexecuted, ?_⟩
  · refine hcycles.trans ?_
    rw [hgiven, hone, hrate]
    exact congrArg (fun held => 16 * (1 + held)) hsize
  · rw [← htape, ← hrate]
    exact htells

end Player

end Chiptune
