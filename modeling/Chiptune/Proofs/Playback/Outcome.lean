import Chiptune.Proofs.Playback.Progress
import Chiptune.Proofs.Vgm.Layout

/-!
# Playback — Outcome

How a render ends, read off the image.  `RenderOutcome.Fits` says for each outcome what the image
must hold.  It begins with instructions without an end marker that reach the declared length, or
they stay below it and are followed by an end marker, by an opcode nobody knows, by an opcode whose
operands are cut off, or by nothing.

Only what stands behind those instructions tells the outcomes apart, so the proof looks at two
places: the first end marker, or the position where reading stops for want of one.

* `exists_fits`: to every image with its commands inside, some outcome fits.
* `outcome_of_fits`: an outcome that fits is the one a render has, on every device.
* `outcome_renderOn_iff`: so of a playable image exactly one outcome fits, the one every render has.
-/

namespace Chiptune

open Player (waitTotal)
open DeviceEvent (readings readings_append)
open Instruction (Reads NoMarker)

/-- How a render ended. -/
inductive RenderOutcome where
  /-- At the declared length. -/
  | complete (samples : Nat)
  /-- At an end marker. -/
  | marker (samples : Nat)
  | failure (error : Error)

/-- The outcome of a result. -/
def RenderOutcome.of : Except Error Rendering → RenderOutcome
  | .ok r => if r.endedByMarker then .marker r.samples.size else .complete r.samples.size
  | .error e => .failure e

namespace Instruction

/-- From a position on, the data begins with these instructions, none of them an end marker. -/
structure Opens (data : ByteArray) (start : Nat) (is : List Instruction) (stop : Nat) : Prop where
  reads : Reads data start is stop
  noMarker : NoMarker is

/-- At a position inside the data stands this opcode. -/
def OpcodeAt (data : ByteArray) (offset opcode : Nat) : Prop :=
  ∃ h : offset < data.size, data[offset].toNat = opcode

/-- Reading stays inside the data. -/
theorem Reads.stop_le {data : ByteArray} {start stop : Nat} {is : List Instruction}
    (h : Reads data start is stop) (hstart : start ≤ data.size) : stop ≤ data.size := by
  induction h with
  | nil => exact hstart
  | cons hdec _ ih => exact ih (end_le_of_decode hdec)

theorem eq_stop_of_command {i : Instruction} (h : i.command = .stop) : i = .stop := by
  cases i with
  | stop => rfl
  | _ => cases h

/-- Either there is no end marker, or there is a first one. -/
theorem noMarker_or_first (is : List Instruction) :
    NoMarker is ∨ ∃ first rest, is = first ++ .stop :: rest ∧ NoMarker first := by
  induction is with
  | nil => exact .inl fun _ h => nomatch h
  | cons i is ih =>
      by_cases hi : i.command = .stop
      · obtain rfl := eq_stop_of_command hi
        exact .inr ⟨[], is, rfl, fun _ h => nomatch h⟩
      · rcases ih with his | ⟨first, rest, rfl, hfirst⟩
        · exact .inl (List.forall_mem_cons.mpr ⟨hi, his⟩)
        · exact .inr ⟨i :: first, rest, rfl, List.forall_mem_cons.mpr ⟨hi, hfirst⟩⟩

end Instruction

open Instruction (Opens OpcodeAt OperandsCut)

/-- What an image must hold from a position on for an outcome at a declared length. -/
def RenderOutcome.Fits (image : ByteArray) (start total : Nat) : RenderOutcome → Prop
  | .complete samples =>
    samples = total ∧ ∃ is stop, Opens image start is stop ∧ total ≤ waitTotal is
  | .marker samples =>
    samples < total ∧ ∃ is stop, Opens image start is stop ∧ waitTotal is = samples ∧
      Instruction.decode image stop = .ok .stop
  | .failure (.unknownCommand opcode offset) =>
    ∃ is, Opens image start is offset ∧ waitTotal is < total ∧ OpcodeAt image offset opcode ∧
      opcode ∉ Instruction.opcodes
  | .failure (.truncatedCommand opcode offset) =>
    ∃ is, Opens image start is offset ∧ waitTotal is < total ∧ OpcodeAt image offset opcode ∧
      OperandsCut image offset opcode
  | .failure (.unexpectedEnd offset rendered expected) =>
    offset = image.size ∧ rendered < total ∧ expected = total ∧
      ∃ is, Opens image start is image.size ∧ waitTotal is = rendered
  | .failure _ => False

/-! ### Some outcome fits -/

theorem exists_fits {image : ByteArray} {start : Nat} (hstart : start ≤ image.size) (total : Nat) :
    ∃ o : RenderOutcome, o.Fits image start total := by
  obtain ⟨stop, hreads, hending⟩ := Score.reads_read image start
  rcases Instruction.noMarker_or_first (Score.read image start).instructions with
    hmarker | ⟨first, rest, heq, hmarker⟩
  · -- no end marker: reading stops at the end of the image or at what cannot be decoded
    have hopens : Opens image start _ stop := ⟨hreads, hmarker⟩
    by_cases htotal : total ≤ waitTotal (Score.read image start).instructions
    · exact ⟨.complete total, rfl, _, stop, hopens, htotal⟩
    · have hlt := Nat.lt_of_not_le htotal
      rcases hending with ⟨hend, -⟩ | ⟨e, hin, hdec, -⟩
      · obtain rfl : stop = image.size := Nat.le_antisymm (hreads.stop_le hstart) hend
        exact ⟨.failure (.unexpectedEnd image.size _ total), rfl, hlt, rfl, _, hopens, rfl⟩
      · rcases (Instruction.decode_eq_error_iff hin).mp hdec with ⟨hop, -⟩ | ⟨hcut, -⟩
        · exact ⟨.failure (.unknownCommand _ stop), _, hopens, hlt, ⟨hin, rfl⟩, hop⟩
        · exact ⟨.failure (.truncatedCommand _ stop), _, hopens, hlt, ⟨hin, rfl⟩, hcut⟩
  · -- what stands behind the first end marker is out of reach
    rw [heq] at hreads
    obtain ⟨mid, hfirst, hrest⟩ := hreads.split
    have hopens : Opens image start first mid := ⟨hfirst, hmarker⟩
    by_cases htotal : total ≤ waitTotal first
    · exact ⟨.complete total, rfl, first, mid, hopens, htotal⟩
    · cases hrest with
      | cons hdec _ =>
          exact ⟨.marker (waitTotal first), Nat.lt_of_not_le htotal, first, mid, hopens, rfl, hdec⟩

/-! ### An outcome that fits is the one a render has -/

/-- The outcome of a plan that tells a device so many readings. -/
def Plan.outcome (plan : Plan) : RenderOutcome :=
  match plan.stop with
  | .complete => .complete (readings plan.events)
  | .marker => .marker (readings plan.events)
  | .fault e => .failure e

theorem Plan.outcome_result {σ : Type} [SoundDevice σ] (plan : Plan) (cycles : Nat) (device : σ) :
    RenderOutcome.of (plan.result cycles (DeviceEvent.heard device plan.events)) =
      plan.outcome := by
  unfold result outcome
  cases plan.stop with
  | complete | marker => simp [RenderOutcome.of, DeviceEvent.length_heard]
  | fault e => rfl

section

variable {image : ByteArray} {start stop cycles total : Nat} {is : List Instruction}

theorem Score.plan_of_opens (h : Opens image start is stop) :
    (read image start).plan cycles total 0 =
      planFrom cycles total (read image stop).ending 0 (is ++ (read image stop).instructions) := by
  rw [plan, read_of_reads h.reads]

/-- Below the declared length, the outcome is decided by what stands after the instructions. -/
theorem Score.outcome_of_opens (h : Opens image start is stop) (hlt : waitTotal is < total)
    {next : Plan} (hnext : (read image stop).plan cycles total (waitTotal is) = next)
    (hevents : next.events = []) :
    ((read image start).plan cycles total 0).outcome =
      match next.stop with
      | .complete => .complete (waitTotal is)
      | .marker => .marker (waitTotal is)
      | .fault e => .failure e := by
  have hreadings : readings (is.flatMap (Instruction.events cycles)) = waitTotal is :=
    readings_flatMap_events cycles is
  rw [plan_of_opens h, planFrom_append_of_lt _ _ _ _ h.noMarker (by rwa [Nat.zero_add]),
    Nat.zero_add]
  rw [plan] at hnext
  simp only [Plan.outcome, hnext, hevents, List.append_nil, hreadings]

theorem Score.outcome_of_ending (h : Opens image start is stop) (hlt : waitTotal is < total)
    {ending : ScoreEnd} (hread : read image stop = ⟨[], ending⟩) :
    ((read image start).plan cycles total 0).outcome =
      .failure (ending.fault (waitTotal is) total) := by
  have hnext : (read image stop).plan cycles total (waitTotal is) =
      .halt (.fault (ending.fault (waitTotal is) total)) := by
    rw [hread, plan, planFrom, if_neg (Nat.not_le.mpr hlt)]
  exact outcome_of_opens h hlt hnext rfl

theorem Score.outcome_of_error (h : Opens image start is stop) (hlt : waitTotal is < total)
    {e : Error} (hin : stop < image.size) (hdec : Instruction.decode image stop = .error e) :
    ((read image start).plan cycles total 0).outcome = .failure e :=
  outcome_of_ending h hlt (read_of_error (Nat.not_le.mpr hin) hdec)

/-- An outcome that fits is the one the plan has. -/
theorem outcome_of_fits {o : RenderOutcome} (h : o.Fits image start total) :
    ((Score.read image start).plan cycles total 0).outcome = o := by
  cases o with
  | complete samples =>
      obtain ⟨rfl, is, stop, hopens, hle⟩ := h
      rw [← Nat.zero_add (waitTotal is)] at hle
      obtain ⟨hstop, hreadings⟩ := Score.planFrom_append_of_le cycles samples
        (Score.read image stop).ending (Score.read image stop).instructions hopens.noMarker
        (Nat.zero_le _) hle
      rw [Nat.zero_add] at hreadings
      simp only [Score.plan_of_opens hopens, Plan.outcome, hstop, hreadings]
  | marker samples =>
      obtain ⟨hlt, is, stop, hopens, rfl, hdec⟩ := h
      have hnext : (Score.read image stop).plan cycles total (waitTotal is) =
          ⟨[], [.stop], .marker⟩ := by
        rw [Score.read_of_ok hdec, Score.plan, Score.planFrom_stop (Nat.not_le.mpr hlt) rfl]
      exact Score.outcome_of_opens hopens hlt hnext rfl
  | failure e =>
      cases e with
      | unknownCommand opcode offset =>
          obtain ⟨is, hopens, hlt, ⟨hin, rfl⟩, hop⟩ := h
          exact Score.outcome_of_error hopens hlt hin
            ((Instruction.decode_eq_error_iff hin).mpr (.inl ⟨hop, rfl⟩))
      | truncatedCommand opcode offset =>
          obtain ⟨is, hopens, hlt, ⟨hin, rfl⟩, hcut⟩ := h
          exact Score.outcome_of_error hopens hlt hin
            ((Instruction.decode_eq_error_iff hin).mpr (.inr ⟨hcut, rfl⟩))
      | unexpectedEnd offset rendered expected =>
          obtain ⟨rfl, hlt, rfl, is, hopens, rfl⟩ := h
          exact Score.outcome_of_ending hopens hlt (Score.read_of_end Nat.le.refl)
      | _ => exact absurd h id

end

/-- A failure that fits is one of the commands. -/
theorem RenderOutcome.Fits.exitStatus {image : ByteArray} {start total : Nat} {e : Error}
    (h : (RenderOutcome.failure e).Fits image start total) : e.exitStatus = 5 := by
  cases e with
  | unknownCommand _ _ | truncatedCommand _ _ | unexpectedEnd _ _ _ => rfl
  | _ => exact absurd h id

namespace Song

/-- **The outcomes of a render.**  Of what the image of a song can hold up to its declared length,
exactly one case is at hand, and it is the outcome of rendering the song, on a chip as on any other
device.  Every failure among them has the exit status of the commands. -/
theorem outcome_renderOn_iff {contents : ByteArray} {song : Song} (h : ofBytes contents = .ok song)
    {σ : Type} [SoundDevice σ] (device : σ) :
    (∃! o : RenderOutcome, o.Fits song.image song.header.dataOffset song.header.totalSamples) ∧
    (∀ o : RenderOutcome, RenderOutcome.of (song.renderOn device) = o ↔
      o.Fits song.image song.header.dataOffset song.header.totalSamples) ∧
    ∀ e : Error, song.renderOn device = .error e → e.exitStatus = 5 := by
  have hunique : ∀ o : RenderOutcome,
      o.Fits song.image song.header.dataOffset song.header.totalSamples →
        RenderOutcome.of (song.renderOn device) = o := by
    intro o ho
    rw [renderOn_eq_result, Plan.outcome_result]
    exact outcome_of_fits ho
  obtain ⟨o, ho⟩ := exists_fits (Nat.le_of_lt (dataOffset_lt h)) song.header.totalSamples
  have hfits : (RenderOutcome.of (song.renderOn device)).Fits song.image song.header.dataOffset
      song.header.totalSamples := by
    rwa [hunique o ho]
  refine ⟨⟨_, hfits, fun o' ho' => (hunique o' ho').symm⟩, fun o' => ⟨?_, hunique o'⟩, ?_⟩
  · rintro rfl
    exact hfits
  · intro e he
    rw [he] at hfits
    exact hfits.exitStatus

/-- Three samples into the five declared, a wait lacks one of its operands. -/
theorem outcome_renderOn_truncated :
    let contents : ByteArray := ⟨#[
      0x56, 0x67, 0x6D, 0x20, 0, 0, 0, 0, 0, 0, 0, 0, 0x99, 0x9E, 0x36, 0,
      0, 0, 0, 0, 0, 0, 0, 0, 5, 0, 0, 0, 0, 0, 0, 0,
      0, 0, 0, 0, 0, 0, 0, 0, 0, 0, 0, 0, 0, 0, 0, 0,
      0, 0, 0, 0, 0, 0, 0, 0, 0, 0, 0, 0, 0, 0, 0, 0,
      0x50, 0x9F, 0x72, 0x61, 0x01]⟩
    let song : Song := ⟨Header.fields contents, contents⟩
    ofBytes contents = .ok song ∧
      RenderOutcome.of song.render = .failure (.truncatedCommand 0x61 0x43) := by
  intro contents song
  have hdeclares : Header.Declares contents 3579545 5 0x40 :=
    ⟨by decide, by decide, ⟨by decide, 0, by decide, by decide⟩, ⟨by decide, by decide⟩,
      0, by decide, by decide, rfl⟩
  have hsong : ofBytes contents = .ok song :=
    ofBytes_of_declares hdeclares (by decide) (by decide)
  have hreads : Instruction.Reads contents 0x40 [.busWrite 0x9F, .shortWait 2] 0x43 :=
    .cons (Instruction.decode_eq_ok_iff.mpr (by decide))
      (.cons (Instruction.decode_eq_ok_iff.mpr (by decide)) (.nil _))
  have hmarker : NoMarker [.busWrite 0x9F, .shortWait 2] := by
    simp [NoMarker, Instruction.command]
  refine ⟨hsong, ((outcome_renderOn_iff hsong Chip.powerOn).2.1 _).mpr ?_⟩
  rw [hdeclares.dataOffset_fields, hdeclares.totalSamples_fields]
  exact ⟨_, ⟨hreads, hmarker⟩, by decide, ⟨by decide, by decide⟩, .inr ⟨rfl, by decide⟩⟩

end Song

end Chiptune
