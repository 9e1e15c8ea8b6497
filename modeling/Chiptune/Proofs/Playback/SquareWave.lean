import Chiptune.Proofs.Chip.SquareWave
import Chiptune.Proofs.Playback.Progress
import Chiptune.Proofs.Vgm.Layout

/-!
# Playback — Square waves

A song that sets its three tones and then waits, from the bytes of the image to the samples.  The
settings stand in any order, and what comes once the declared length is reached does not matter.

* `planFrom_writes_waits`: such a song tells a device the bytes of the settings, and then as many
  stretches of cycles as samples are declared.
* `heard_settings`: what is heard of a chip that is told so is the sum of three square waves.
* `renderOn_squareWave`: so the image loads, renders on a chip with any mutes, and each sample is
  given by a formula in its number, the declared clock, and the values set.
-/

namespace Chiptune

open Player (waitTotal)
open Instruction (AllWaits NoMarker Reads encode)

/-! ### What is heard of a chip that is set and left alone -/

theorem DeviceEvent.replayAll_writes (c : Chip) (bytes : List UInt8) :
    replayAll c (bytes.map .write) = c.writeAll bytes :=
  List.foldl_map

theorem DeviceEvent.heard_writes (c : Chip) (bytes : List UInt8) :
    heard c (bytes.map .write) = [] :=
  List.eq_nil_of_length_eq_zero (by
    rw [length_heard]
    induction bytes with
    | nil => rfl
    | cons b rest ih => exact ih)

/-- Of a chip that is left alone, one reading is heard after each stretch of cycles. -/
theorem DeviceEvent.heard_rendering (c : Chip) (cycles count : Nat) :
    heard c (rendering cycles count) =
      (List.range count).map fun k => ((c.advance ((k + 1) * cycles)).sample : Int) := by
  induction count generalizing c with
  | zero => rfl
  | succ count ih =>
      have hlater : ∀ k, c.advance ((k + 1 + 1) * cycles) =
          (c.advance cycles).advance ((k + 1) * cycles) := by
        intro k
        rw [Nat.succ_mul (k + 1), Nat.add_comm, Chip.advance_add]
      rw [List.range_succ_eq_map, List.map_cons, List.map_map, Nat.zero_add, Nat.one_mul]
      refine congrArg _ ((ih (c.advance cycles)).trans ?_)
      exact List.map_congr_left fun k _ => by
        simp only [Function.comp_apply, Nat.succ_eq_add_one, hlater]

theorem Chip.mutes_writeAll (c : Chip) (bytes : List UInt8) :
    (c.writeAll bytes).mutes = c.mutes := by
  induction bytes generalizing c with
  | nil => rfl
  | cons b rest ih => exact (ih (c.write b)).trans (c.mutes_write b)

/-- What is heard of a chip at rest whose registers are set before it is left alone. -/
theorem Chip.heard_settings {values : Fin 3 × Register → Nat} (hvalues : Settable values)
    {settings : List (Fin 3 × Register)} (hsettings : ∀ setting, setting ∈ settings) (c : Chip)
    (cycles count : Nat) :
    DeviceEvent.heard c.reset
        ((settings.flatMap (settingBytes values)).map .write ++
          DeviceEvent.rendering cycles count) =
      (List.range count).map fun k =>
        (squareWave values (c.isMuted ·) ((k + 1) * cycles / 16) : Int) := by
  obtain ⟨hrest, hholds⟩ := writeAll_settings hvalues settings c.atRest_reset
  have hmuted : ∀ index,
      (c.reset.writeAll (settings.flatMap (settingBytes values))).isMuted index =
        c.isMuted index := by
    intro index
    rw [isMuted, mutes_writeAll]
    rfl
  rw [DeviceEvent.heard_append, DeviceEvent.heard_writes, DeviceEvent.replayAll_writes,
    DeviceEvent.heard_rendering, List.nil_append]
  refine List.map_congr_left fun k _ => ?_
  rw [sample_advance_of_atRest hrest fun setting => hholds setting (.inl (hsettings setting))]
  simp only [hmuted]

/-! ### The plan of a song that sets the chip and waits -/

namespace Instruction

theorem waitTotal_busWrites (bytes : List UInt8) : waitTotal (bytes.map .busWrite) = 0 := by
  induction bytes with
  | nil => rfl
  | cons b rest ih => rw [List.map_cons, waitTotal_cons, ih]; rfl

theorem noMarker_busWrites (bytes : List UInt8) : NoMarker (bytes.map .busWrite) := by
  intro i hi
  obtain ⟨b, -, rfl⟩ := List.mem_map.mp hi
  exact nofun

/-- Commands that hold an instruction begin inside the image. -/
theorem start_lt {image back : ByteArray} {start : Nat} {is : List Instruction} (h : is ≠ [])
    (hcommands : image.extract start image.size = encode is ++ back) : start < image.size := by
  have hsize := congrArg ByteArray.size hcommands
  have hpos := size_encode_pos h
  rw [ByteArray.size_extract, ByteArray.size_append] at hsize
  omega

theorem events_busWrites (cycles : Nat) (bytes : List UInt8) :
    (bytes.map busWrite).flatMap (events cycles) = bytes.map .write := by
  rw [List.flatMap_map]
  exact List.map_eq_flatMap.symm

end Instruction

/-- Writes and then waits that reach the declared length are all that is told. -/
theorem Score.planFrom_writes_waits (cycles : Nat) {total : Nat} (ending : ScoreEnd)
    (bytes : List UInt8) {waits : List Instruction} (hwaits : AllWaits waits)
    (hpos : 0 < total) (htotal : total ≤ waitTotal waits) (rest : List Instruction) :
    let plan := planFrom cycles total ending 0 (bytes.map .busWrite ++ (waits ++ rest))
    plan.events = bytes.map .write ++ DeviceEvent.rendering cycles total ∧
      plan.stop = .complete := by
  have hwrites := Instruction.waitTotal_busWrites bytes
  have hbelow : 0 + waitTotal (bytes.map .busWrite) < total := by omega
  obtain ⟨hevents, hstop⟩ := planFrom_waits cycles total ending rest hwaits 0
  have hcount : min (waitTotal waits) (total - 0) = total := by omega
  rw [hcount, Nat.zero_add, planFrom_of_le cycles ending Nat.le.refl] at hevents hstop
  intro plan
  have hplan : plan = _ :=
    planFrom_append_of_lt cycles total ending (waits ++ rest)
      (Instruction.noMarker_busWrites bytes) hbelow
  rw [hplan, hwrites, Instruction.events_busWrites, Nat.zero_add]
  refine ⟨?_, hstop⟩
  dsimp only
  rw [hevents]
  exact congrArg _ (List.append_nil _)

namespace Song

/-- **The square wave law.**  An image declares a clock and a length, and its commands set each
register of each tone and then wait for that length at least.  It is a song, and on a chip with any
mutes it renders to exactly the declared samples: at each of them the chip has run a whole number of
cycles per sample, a sixteenth of that in channel clocks, and puts out the square waves of the tones
that are not muted. -/
theorem renderOn_squareWave {image : ByteArray} {clock total start : Nat}
    (himage : Header.Declares image clock total start) (hclock : 1 ≤ clock)
    {values : Fin 3 × Register → Nat} (hvalues : Chip.Settable values)
    {settings : List (Fin 3 × Register)} (hsettings : ∀ setting, setting ∈ settings)
    {waits : List Instruction} (hwaits : AllWaits waits) (htotal : total ≤ waitTotal waits)
    {back : ByteArray}
    (hcommands : image.extract start image.size =
      encode ((settings.flatMap (Chip.settingBytes values)).map .busWrite ++ waits) ++ back)
    (c : Chip) :
    ∃ song r, ofBytes image = .ok song ∧ song.renderOn c = .ok r ∧ r.samples.size = total ∧
      ∀ k (h : k < r.samples.size), r.samples[k] =
        (Chip.squareWave values (c.isMuted ·) ((k + 1) * (clock / 44100) / 16) : Int) := by
  let bytes := settings.flatMap (Chip.settingBytes values)
  let song : Song := ⟨Header.fields image, image⟩
  have hcycles : Chiptune.cyclesPerSample song.header.clock = clock / 44100 :=
    congrArg (· / 44100) himage.clock_fields
  have hlength : song.header.totalSamples = total := himage.totalSamples_fields
  have hoffset : song.header.dataOffset = start := himage.dataOffset_fields
  have hsome : bytes.map Instruction.busWrite ++ waits ≠ [] := by
    have hbyte : BusWrite.latchByte ⟨.tone0, .volume⟩ (values (0, .volume)) ∈ bytes :=
      List.mem_flatMap.mpr ⟨(0, .volume), hsettings _, List.mem_singleton_self _⟩
    exact List.append_ne_nil_of_left_ne_nil (List.ne_nil_of_mem (List.mem_map_of_mem hbyte)) _
  have hsong : ofBytes image = .ok song :=
    ofBytes_of_declares himage (Nat.ne_of_gt hclock) (Instruction.start_lt hsome hcommands)
  have hreads : song.commands =
      encode (bytes.map .busWrite ++ waits) ++ back := by
    rw [commands, hoffset]
    exact hcommands
  have hplan := plan_of_reads (Instruction.reads_encode _) hreads
  rw [hcycles, hlength, List.append_assoc] at hplan
  have hheard : song.plan.stop = .complete ∧
      DeviceEvent.heard (SoundDevice.reset c) song.plan.events =
      (List.range total).map fun k =>
        (Chip.squareWave values (c.isMuted ·) ((k + 1) * (clock / 44100) / 16) : Int) := by
    rcases Nat.eq_zero_or_pos total with rfl | hpos
    · rw [hplan, Score.planFrom_of_le _ _ Nat.le.refl]
      exact ⟨rfl, rfl⟩
    · obtain ⟨hevents, hstop⟩ := Score.planFrom_writes_waits (clock / 44100) _ bytes hwaits hpos
        htotal _
      rw [hplan, hevents]
      exact ⟨hstop, Chip.heard_settings hvalues hsettings c _ total⟩
  obtain ⟨hstop, hsamples⟩ := hheard
  have hresult : song.renderOn c = _ := song.renderOn_eq_result c
  rw [Plan.result, hstop] at hresult
  refine ⟨song, _, hsong, hresult, ?_, fun k hk => ?_⟩
  · simp only [hsamples, List.size_toArray, List.length_map, List.length_range]
  · simp only [hsamples, List.getElem_toArray, List.getElem_map, List.getElem_range]

/-- Three tones of periods 2, 0 and 5, the last of them muted, on a chip that is clocked once in a
sample. -/
theorem renderOn_squareWave_four_samples :
    let image : ByteArray := ⟨#[
      0x56, 0x67, 0x6D, 0x20, 0, 0, 0, 0, 0, 0, 0, 0, 0x40, 0xC4, 0x0A, 0x80,
      0, 0, 0, 0, 0, 0, 0, 0, 4, 0, 0, 0, 0, 0, 0, 0,
      0, 0, 0, 0, 0, 0, 0, 0, 0, 0, 0, 0, 0, 0, 0, 0,
      0, 0, 0, 0, 0x0C, 0, 0, 0, 0, 0, 0, 0, 0, 0, 0, 0,
      0x50, 0x82, 0x50, 0x00, 0x50, 0x90, 0x50, 0xB1, 0x50, 0xA0, 0x50, 0x00,
      0x50, 0xC5, 0x50, 0x00, 0x50, 0xD0, 0x73, 0xFF]⟩
    ∃ song r, ofBytes image = .ok song ∧ song.renderOn (Chip.powerOn.setMute 2 true) = .ok r ∧
      r.samples = #[14697, 8191, 6506, 0] := by
  intro image
  let values (setting : Fin 3 × Register) : Nat :=
    if setting.2 = .period then ![2, 0, 5] setting.1 else ![0, 1, 0] setting.1
  let settings : List (Fin 3 × Register) :=
    [(0, .period), (0, .volume), (1, .volume), (1, .period), (2, .period), (2, .volume)]
  have himage : Header.Declares image 705600 4 0x40 :=
    ⟨by decide, by decide, ⟨by decide, 2, by decide, by decide⟩, ⟨by decide, by decide⟩,
      0x0C, by decide, by decide, rfl⟩
  have hvalues : Chip.Settable values := by
    unfold Chip.Settable
    decide
  have hsettings : ∀ setting, setting ∈ settings := by
    rintro ⟨i, register⟩
    revert i
    cases register <;> decide
  have hwaits : AllWaits [.shortWait 3] := by simp [AllWaits, Instruction.command]
  obtain ⟨song, r, hsong, hr, hsize, hsamples⟩ :=
    renderOn_squareWave himage (by decide) hvalues hsettings hwaits (by decide)
      (show _ = _ ++ (⟨#[0xFF]⟩ : ByteArray) by decide) (Chip.powerOn.setMute 2 true)
  have hwave : ∀ k : Fin 4, (Chip.squareWave values ((Chip.powerOn.setMute 2 true).isMuted ·)
      ((k.val + 1) * (705600 / 44100) / 16) : Int) = #[14697, 8191, 6506, 0][k] := by
    decide
  refine ⟨song, r, hsong, hr, Array.ext hsize fun k hk hk' => ?_⟩
  exact (hsamples k hk).trans (hwave ⟨k, hk'⟩)

end Song

end Chiptune
