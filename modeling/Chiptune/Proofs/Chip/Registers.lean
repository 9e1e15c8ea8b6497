import Chiptune.Proofs.Chip.Signals

/-!
# Chip — Registers

The register file.  Every byte on the bus goes to one register: a latch byte to the one it names, a
data byte to the one named by the last latch byte before it, or where the latch pointed at first.
What a register holds in the end is what the last byte for it says, whatever was written in between.

* `bytesFor`: the bytes of a list that go to a register, told by their places in the list alone.
* `part_writeAll`: a part of the chip that changes only by the bytes for one register is changed by
  those bytes in order.
* `writeAll_registers`: so each register has its last writer, and each half of a period register has
  one of its own, latch bytes for the low half and data bytes for the high one.

The proofs go by the last byte of a list: the bytes before it have gone where they go without it.
-/

namespace Chiptune

/-! ### Where the bytes of a list go -/

/-- The width of the write a byte on the bus makes. -/
def Width.ofByte (byte : UInt8) : Width :=
  if isLatchByte byte then .narrow else .wide

/-- The data bits of a byte on the bus: four in a latch byte, six in a data byte. -/
def dataBits (byte : UInt8) : Nat :=
  if isLatchByte byte then byte.toNat % 16 else byte.toNat % 64

namespace Target

/-- The register that the last latch byte among some bytes names, or the one the latch points to if
there is none among them. -/
def lastNamed (latch : Target) (bytes : List UInt8) : Target :=
  (bytes.filter isLatchByte).getLast?.elim latch ofLatchByte

/-- Some bytes, each with the register it goes to: the one named last, by itself or before it. -/
def addressed (latch : Target) (bytes : List UInt8) : List (Target × UInt8) :=
  bytes.mapIdx fun k byte => (latch.lastNamed (bytes.take (k + 1)), byte)

/-- The bytes among some that go to a register, in order. -/
def bytesFor (latch : Target) (bytes : List UInt8) (t : Target) : List UInt8 :=
  ((latch.addressed bytes).filter fun sent => sent.1 = t).map Prod.snd

variable (latch : Target) (bytes : List UInt8) (byte : UInt8)

theorem after_eq_ite :
    latch.after byte = if isLatchByte byte then ofLatchByte byte else latch := by
  unfold after BusWrite.decode
  cases isLatchByte byte <;> rfl

theorem lastNamed_concat :
    latch.lastNamed (bytes ++ [byte]) = (latch.lastNamed bytes).after byte := by
  rw [after_eq_ite, lastNamed, List.filter_append]
  by_cases hform : isLatchByte byte = true
  · rw [List.filter_cons_of_pos hform, List.filter_nil, if_pos hform, List.getLast?_concat]
    rfl
  · rw [List.filter_cons_of_neg hform, List.filter_nil, if_neg hform, List.append_nil]
    rfl

/-- A byte more goes where the latch stands after it, and the others go where they went. -/
theorem addressed_concat :
    latch.addressed (bytes ++ [byte]) =
      latch.addressed bytes ++ [((latch.lastNamed bytes).after byte, byte)] := by
  have hfront : ∀ k, k < bytes.length → (bytes ++ [byte]).take (k + 1) = bytes.take (k + 1) :=
    fun k hk => List.take_append_of_le_length hk
  have hlast : (bytes ++ [byte]).take (bytes.length + 1) = bytes ++ [byte] :=
    List.take_of_length_le (Nat.le_of_eq List.length_append)
  rw [addressed, List.mapIdx_concat, hlast, lastNamed_concat, addressed]
  refine congrArg (· ++ _) (List.mapIdx_eq_mapIdx_iff.mpr fun k hk => ?_)
  rw [hfront k hk]

theorem bytesFor_concat (t : Target) :
    latch.bytesFor (bytes ++ [byte]) t =
      latch.bytesFor bytes t ++ if (latch.lastNamed bytes).after byte = t then [byte] else [] := by
  rw [bytesFor, addressed_concat, List.filter_append, List.map_append]
  refine congrArg (_ ++ ·) ?_
  by_cases h : (latch.lastNamed bytes).after byte = t
  · rw [if_pos h, List.filter_cons_of_pos (by simpa using h)]
    rfl
  · rw [if_neg h, List.filter_cons_of_neg (by simpa using h)]
    rfl

end Target

/-! ### Halves of a period -/

/-- A period with the half replaced that a byte carries: a latch byte the low four bits, a data byte
the high six. -/
def halfReplaced (period : Nat) (byte : UInt8) : Nat :=
  if isLatchByte byte then period / 16 % 64 * 16 + byte.toNat % 16
  else byte.toNat % 64 * 16 + period % 16

theorem low_halfReplaced (period : Nat) (byte : UInt8) :
    halfReplaced period byte % 16 = if isLatchByte byte then byte.toNat % 16 else period % 16 := by
  unfold halfReplaced
  split <;> omega

theorem high_halfReplaced (period : Nat) (byte : UInt8) :
    halfReplaced period byte / 16 % 64 =
      if !isLatchByte byte then byte.toNat % 64 else period / 16 % 64 := by
  unfold halfReplaced
  cases isLatchByte byte with
  | true =>
      show (period / 16 % 64 * 16 + byte.toNat % 16) / 16 % 64 = period / 16 % 64
      omega
  | false =>
      show (byte.toNat % 64 * 16 + period % 16) / 16 % 64 = byte.toNat % 64
      omega

theorem halfReplaced_lt (period : Nat) (byte : UInt8) : halfReplaced period byte < 1024 := by
  unfold halfReplaced
  split <;> omega

theorem Tone.period_write (t : Tone) (byte : UInt8) :
    (t.write .period (.ofByte byte) (dataBits byte)).period = halfReplaced t.period byte := by
  unfold Width.ofByte dataBits halfReplaced
  cases isLatchByte byte with
  | true =>
      show t.period / 16 % 64 * 16 + byte.toNat % 16 % 16 = _
      rw [Nat.mod_mod]
      rfl
  | false =>
      show byte.toNat % 64 % 64 * 16 + t.period % 16 = _
      rw [Nat.mod_mod]
      rfl

/-- Taking over the value of every element with a property leaves that of the last of them. -/
theorem foldl_takeOver {α : Type} (p : UInt8 → Bool) (value : UInt8 → α) (a : α)
    (bytes : List UInt8) :
    bytes.foldl (fun a byte => if p byte then value byte else a) a =
      (bytes.filter p).getLast?.elim a value := by
  induction bytes using List.reverseRecOn with
  | nil => rfl
  | append_singleton bytes byte ih =>
      rw [List.foldl_append, ih, List.filter_append, List.foldl_cons, List.foldl_nil]
      by_cases hp : p byte = true
      · rw [List.filter_cons_of_pos hp, List.filter_nil, if_pos hp, List.getLast?_concat]
        rfl
      · rw [List.filter_cons_of_neg hp, List.filter_nil, if_neg hp, List.append_nil]

theorem NoiseRate.bits_ofBits (n : Nat) : (NoiseRate.ofBits n).bits = n % 4 := by
  have hlt : n % 4 < 4 := Nat.mod_lt n (by decide)
  unfold NoiseRate.ofBits
  generalize n % 4 = k at hlt
  match k, hlt with
  | 0, _ | 1, _ | 2, _ | 3, _ => rfl

namespace Chip

/-- The attenuation levels in the volume registers. -/
def volumes (c : Chip) : PerVoice Nat where
  tone0 := c.tone0.volume
  tone1 := c.tone1.volume
  tone2 := c.tone2.volume
  noise := c.noise.volume

variable (c : Chip) (bytes : List UInt8) (byte : UInt8)

theorem writeAll_concat : c.writeAll (bytes ++ [byte]) = (c.writeAll bytes).write byte :=
  List.foldl_append

theorem latch_writeAll : (c.writeAll bytes).latch = c.latch.lastNamed bytes := by
  induction bytes using List.reverseRecOn with
  | nil => rfl
  | append_singleton bytes byte ih =>
      rw [writeAll_concat, latch_write, ih, Target.lastNamed_concat]

/-- **A register and its bytes.**  A part of the chip that a byte changes only if it goes to one
register is changed by the bytes for that register in order, and by no others. -/
theorem part_writeAll {α : Type} (part : Chip → α) {update : α → UInt8 → α} {t : Target}
    (h : ∀ c byte, part (c.write byte) =
      if c.latch.after byte = t then update (part c) byte else part c) :
    part (c.writeAll bytes) = (c.latch.bytesFor bytes t).foldl update (part c) := by
  induction bytes using List.reverseRecOn with
  | nil => rfl
  | append_singleton bytes byte ih =>
      rw [writeAll_concat, h, latch_writeAll, ih, Target.bytesFor_concat, List.foldl_append]
      split
      · rfl
      · rfl

/-- A part that every byte of a form overwrites is what the last such byte says. -/
theorem part_writeAll_last {α : Type} (part : Chip → α) {t : Target} (form : UInt8 → Bool)
    (value : UInt8 → α)
    (h : ∀ c byte, part (c.write byte) =
      if c.latch.after byte = t then if form byte then value byte else part c else part c) :
    part (c.writeAll bytes) =
      ((c.latch.bytesFor bytes t).filter form).getLast?.elim (part c) value :=
  (c.part_writeAll bytes part h).trans (foldl_takeOver form value _ _)

/-! ### What one byte does to a register -/

theorem write_eq :
    c.write byte = { c with latch := c.latch.after byte }.writeTo (c.latch.after byte)
      (.ofByte byte) (dataBits byte) := by
  unfold write Target.after Width.ofByte dataBits BusWrite.decode
  cases isLatchByte byte <;> rfl

theorem volumes_writeTo (t : Target) (w : Width) (d : Nat) (v : Voice) :
    (c.writeTo t w d).volumes.get v = if t = ⟨v, .volume⟩ then d % 16 else c.volumes.get v := by
  obtain ⟨u, r⟩ := t
  simp only [Target.mk.injEq]
  cases u <;> cases r <;> cases w <;> cases v <;> rfl

theorem volume_write (v : Voice) :
    (c.write byte).volumes.get v =
      if c.latch.after byte = ⟨v, .volume⟩ then byte.toNat % 16 else c.volumes.get v := by
  have hdata : dataBits byte % 16 = byte.toNat % 16 := by
    unfold dataBits
    split <;> omega
  rw [write_eq, volumes_writeTo, hdata]
  rfl

theorem period_write (i : Fin 3) :
    ((c.write byte).tone i).period =
      if c.latch.after byte = ⟨.ofTone i, .period⟩ then halfReplaced (c.tone i).period byte
      else (c.tone i).period := by
  rw [write_eq]
  obtain ⟨v, r⟩ := c.latch.after byte
  simp only [Target.mk.injEq]
  by_cases hv : v = .ofTone i
  · rw [tone_writeTo_of_eq hv]
    cases r with
    | volume => rw [if_neg (by nofun)]; rfl
    | period =>
        rw [if_pos ⟨hv, rfl⟩]
        exact (c.tone i).period_write byte
  · rw [tone_writeTo_of_ne hv, if_neg fun h => hv h.1]
    rfl

theorem noise_write :
    (c.write byte).noise =
      if (c.latch.after byte).voice = .noise then
        c.noise.write (c.latch.after byte).register (dataBits byte)
      else c.noise := by
  rw [write_eq]
  split
  · rename_i h
    rw [noise_writeTo_of_eq h]
  · rename_i h
    rw [noise_writeTo_of_ne h]

theorem control_write :
    ((c.write byte).noise.rate.bits, (c.write byte).noise.white) =
      if c.latch.after byte = ⟨.noise, .period⟩ then (byte.toNat % 4, byte.toNat.testBit 2)
      else (c.noise.rate.bits, c.noise.white) := by
  have hrate : dataBits byte % 4 = byte.toNat % 4 := by
    unfold dataBits
    split <;> omega
  have hwhite : dataBits byte / 4 % 2 = byte.toNat / 4 % 2 := by
    unfold dataBits
    split <;> omega
  rw [noise_write]
  obtain ⟨v, r⟩ := c.latch.after byte
  simp only [Target.mk.injEq]
  by_cases hv : v = .noise
  · rw [if_pos hv]
    cases r with
    | volume => rw [if_neg (by nofun)]; rfl
    | period =>
        rw [if_pos ⟨hv, rfl⟩, Noise.write, NoiseRate.bits_ofBits, hrate, hwhite,
          Nat.testBit_eq_decide_div_mod_eq]
        rfl
  · rw [if_neg hv, if_neg fun h => hv h.1]

/-! ### The register file -/

theorem volume_writeAll (v : Voice) :
    (c.writeAll bytes).volumes.get v =
      (c.latch.bytesFor bytes ⟨v, .volume⟩).getLast?.elim (c.volumes.get v) (·.toNat % 16) := by
  rw [← List.filter_true (c.latch.bytesFor bytes _)]
  exact c.part_writeAll_last bytes (fun c => c.volumes.get v) (fun _ => true) _
    fun c byte => c.volume_write byte v

/-- The control register of the noise, rate and feedback, is what the last byte for it says. -/
theorem control_writeAll :
    (c.writeAll bytes).noise.rate.bits =
        (c.latch.bytesFor bytes ⟨.noise, .period⟩).getLast?.elim c.noise.rate.bits (·.toNat % 4) ∧
      (c.writeAll bytes).noise.white =
        (c.latch.bytesFor bytes ⟨.noise, .period⟩).getLast?.elim c.noise.white
          (·.toNat.testBit 2) := by
  rw [← List.filter_true (c.latch.bytesFor bytes _)]
  refine ⟨?_, ?_⟩
  · refine c.part_writeAll_last bytes (fun c => c.noise.rate.bits) (fun _ => true) _
      fun c byte => ?_
    exact (congrArg Prod.fst (c.control_write byte)).trans (apply_ite Prod.fst _ _ _)
  · refine c.part_writeAll_last bytes (fun c => c.noise.white) (fun _ => true) _
      fun c byte => ?_
    exact (congrArg Prod.snd (c.control_write byte)).trans (apply_ite Prod.snd _ _ _)

section

variable (i : Fin 3)

/-- The low half of a period register is what the last latch byte for it says. -/
theorem low_period_writeAll :
    ((c.writeAll bytes).tone i).period % 16 =
      ((c.latch.bytesFor bytes ⟨.ofTone i, .period⟩).filter isLatchByte).getLast?.elim
        ((c.tone i).period % 16) (·.toNat % 16) :=
  c.part_writeAll_last bytes (fun c => (c.tone i).period % 16) isLatchByte _
    fun c byte => by rw [period_write, apply_ite (· % 16), low_halfReplaced]

/-- The high half is what the last data byte for it says. -/
theorem high_period_writeAll :
    ((c.writeAll bytes).tone i).period / 16 % 64 =
      ((c.latch.bytesFor bytes ⟨.ofTone i, .period⟩).filter (!isLatchByte ·)).getLast?.elim
        ((c.tone i).period / 16 % 64) (·.toNat % 64) :=
  c.part_writeAll_last bytes (fun c => (c.tone i).period / 16 % 64) (!isLatchByte ·) _
    fun c byte => by rw [period_write, apply_ite (· / 16 % 64), high_halfReplaced]

theorem period_writeAll :
    ((c.writeAll bytes).tone i).period =
      (c.latch.bytesFor bytes ⟨.ofTone i, .period⟩).foldl halfReplaced (c.tone i).period :=
  c.part_writeAll bytes (fun c => (c.tone i).period) fun c byte => c.period_write byte i

/-- A period register that some byte goes to has ten bits. -/
theorem period_writeAll_lt (h : c.latch.bytesFor bytes ⟨.ofTone i, .period⟩ ≠ []) :
    ((c.writeAll bytes).tone i).period < 1024 := by
  obtain ⟨first, last, hbytes⟩ := (List.eq_nil_or_concat _).resolve_left h
  rw [period_writeAll, hbytes, List.concat_eq_append, List.foldl_append]
  exact halfReplaced_lt _ last

end

/-- **The last writer.**  Write any bytes to a chip in any state.  The latch ends at the register
that the last latch byte names.  A volume is the low four bits of the last byte for it, whether latch
or data byte, and the control register of the noise the low three.  Of the period of a tone, the low
four bits are those of the last latch byte for it, and the high six those of the last data byte for
it, whatever the order the halves were written in; a half that no byte carries stays, and the two
together are the period.  A register that no byte goes to keeps its value. -/
theorem writeAll_registers (c : Chip) (bytes : List UInt8) :
    let written := c.writeAll bytes
    let sent (v : Voice) (r : Register) := c.latch.bytesFor bytes ⟨v, r⟩
    written.latch = (bytes.filter isLatchByte).getLast?.elim c.latch Target.ofLatchByte ∧
    (∀ v, written.volumes.get v =
      (sent v .volume).getLast?.elim (c.volumes.get v) (·.toNat % 16)) ∧
    written.noise.rate.bits =
      (sent .noise .period).getLast?.elim c.noise.rate.bits (·.toNat % 4) ∧
    written.noise.white =
      (sent .noise .period).getLast?.elim c.noise.white (·.toNat.testBit 2) ∧
    ∀ i,
      let latches := (sent (.ofTone i) .period).filter isLatchByte
      let datas := (sent (.ofTone i) .period).filter (!isLatchByte ·)
      (written.tone i).period % 16 =
        latches.getLast?.elim ((c.tone i).period % 16) (·.toNat % 16) ∧
      (written.tone i).period / 16 % 64 =
        datas.getLast?.elim ((c.tone i).period / 16 % 64) (·.toNat % 64) ∧
      (sent (.ofTone i) .period = [] → (written.tone i).period = (c.tone i).period) ∧
      (sent (.ofTone i) .period ≠ [] → (written.tone i).period =
        datas.getLast?.elim ((c.tone i).period / 16 % 64) (·.toNat % 64) * 16 +
          latches.getLast?.elim ((c.tone i).period % 16) (·.toNat % 16)) := by
  intro written sent
  obtain ⟨hrate, hwhite⟩ := c.control_writeAll bytes
  refine ⟨c.latch_writeAll bytes, c.volume_writeAll bytes, hrate, hwhite, fun i => ?_⟩
  intro latches datas
  have hlow : _ = latches.getLast?.elim _ _ := c.low_period_writeAll bytes i
  have hhigh : _ = datas.getLast?.elim _ _ := c.high_period_writeAll bytes i
  refine ⟨hlow, hhigh, fun hnone => ?_, fun hsome => ?_⟩
  · refine (c.period_writeAll bytes i).trans ?_
    rw [show c.latch.bytesFor bytes ⟨.ofTone i, .period⟩ = [] from hnone]
    rfl
  · -- with no bits above the ten, the halves are all there is of the period
    have hlt := c.period_writeAll_lt bytes i hsome
    rw [← hlow, ← hhigh]
    show ((c.writeAll bytes).tone i).period = _
    omega

/-- A data byte for tone 0, where the latch points at first; then the period of tone 1, its low half
written twice and its high half in between, after a volume of the noise. -/
theorem writeAll_registers_interleaved :
    let written := powerOn.writeAll [0x3A, 0xA5, 0x12, 0xF3, 0xA9]
    written.latch = ⟨.tone1, .period⟩ ∧ written.volumes.get .noise = 3 ∧
      (written.tone 0).period / 16 % 64 = 0x3A ∧ (written.tone 1).period = 0x129 ∧
      (written.tone 2).period = 0 := by
  obtain ⟨hlatch, hvolume, -, -, htone⟩ :=
    powerOn.writeAll_registers [0x3A, 0xA5, 0x12, 0xF3, 0xA9]
  obtain ⟨-, hhigh0, -, -⟩ := htone 0
  obtain ⟨-, -, -, hboth⟩ := htone 1
  obtain ⟨-, -, hnone, -⟩ := htone 2
  exact ⟨hlatch, hvolume .noise, hhigh0, hboth (by decide), hnone (by decide)⟩

end Chip

end Chiptune
