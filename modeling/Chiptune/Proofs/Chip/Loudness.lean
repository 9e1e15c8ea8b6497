import Chiptune.Chip.History
import Chiptune.Proofs.Chip.Registers
import Chiptune.Proofs.Chip.SquareWave

/-!
# Chip — Loudness

Volumes and mutes say how loud a voice is heard, and nothing else in the chip looks at them.  Two
chips are *in step* (`InStep`) if they differ in volumes and mutes at most.  Two histories *match*
(`Matches`) if they differ in mute calls, and in the data bits of bytes that go to a volume, at most.

* `InStep.apply`: operations that match keep two chips in step.
* `sample_eq_sum_audible`: a chip puts out the sum of the amplitudes of its voices that are high and
  not muted.
* `run_inStep`: so chips that start in step and go through matching histories stay in step, however
  different they sound.

A data byte goes where the latch points, so whether two bytes match depends on the bytes before
them.  The first chip's latch tells; the second chip's is the same, as long as they are in step.
-/

namespace Chiptune

/-- The mix, as the sum over the voices that are high and not muted. -/
theorem mix_eq_sum_audible (mutes phases : PerVoice Bool) (volumes levels : PerVoice Nat)
    (h : ∀ v, levels.get v = if phases.get v then volumes.get v else silentLevel) :
    mix mutes levels =
      ∑ v : Voice with mutes.get v = false ∧ phases.get v = true, amplitude (volumes.get v) := by
  calc mix mutes levels
      = ∑ v : Voice, contribution (mutes.get v) (levels.get v) := mix_eq_sum mutes levels
    _ = ∑ v : Voice, if mutes.get v = false ∧ phases.get v = true then
          amplitude (volumes.get v) else 0 :=
        Finset.sum_congr rfl fun v _ => by rw [h v, contribution_ite]
    _ = _ := (Finset.sum_filter _ _).symm

/-! ### Clocks do not look at a volume -/

theorem Tone.clock_withVolume (t : Tone) (volume : Nat) :
    { t with volume := volume }.clock = { t.clock with volume := volume } := by
  by_cases h : t.counter ≤ 1
  · rw [show t.clock = _ from if_pos h]
    exact if_pos h
  · rw [show t.clock = _ from if_neg h]
    exact if_neg h

theorem Noise.cross_withVolume (n : Noise) (volume : Nat) :
    { n with volume := volume }.cross = { n.cross with volume := volume } := by
  unfold cross
  cases n.toggle <;> rfl

theorem Noise.clock_withVolume (n : Noise) (volume tone2Period : Nat) :
    { n with volume := volume }.clock tone2Period =
      { n.clock tone2Period with volume := volume } := by
  by_cases h : n.counter ≤ 1
  · rw [show n.clock tone2Period = _ from if_pos h]
    refine (if_pos h).trans ?_
    rw [cross_withVolume]
    rfl
  · rw [show n.clock tone2Period = _ from if_neg h]
    exact if_neg h

/-! ### Bytes with the same control bits -/

/-- Two bytes on the bus that differ in their data bits at most: the low four of a latch byte, the
low six of a data byte. -/
def SameControl (byte byte' : UInt8) : Prop :=
  if isLatchByte byte then byte'.toNat / 16 = byte.toNat / 16
  else byte'.toNat / 64 = byte.toNat / 64

theorem SameControl.after_eq {byte byte' : UInt8} (h : SameControl byte byte') (latch : Target) :
    latch.after byte' = latch.after byte := by
  unfold SameControl at h
  rw [Target.after_eq_ite, Target.after_eq_ite]
  split at h
  · rename_i hlatch
    have hform : isLatchByte byte' = isLatchByte byte := by
      unfold isLatchByte
      rw [show byte'.toNat / 128 = byte.toNat / 128 by omega]
    have hvoice : byte'.toNat / 32 = byte.toNat / 32 := by omega
    rw [hform, if_pos hlatch, if_pos hlatch, Target.ofLatchByte, Target.ofLatchByte, hvoice, h]
  · rename_i hdata
    have hform : isLatchByte byte' = isLatchByte byte := by
      unfold isLatchByte
      rw [show byte'.toNat / 128 = byte.toNat / 128 by omega]
    rw [hform, if_neg hdata, if_neg hdata]

namespace Chip

/-- Two operations of a host that differ in loudness at most, where the latch stands at `latch`. -/
inductive Operation.Matches (latch : Target) : Operation → Operation → Prop
  | same (op : Operation) : Matches latch op op
  | mute (index index' : Nat) (muted muted' : Bool) :
      Matches latch (.mute index muted) (.mute index' muted')
  | volume {byte byte' : UInt8} (goes : (latch.after byte).register = .volume)
      (control : SameControl byte byte') : Matches latch (.write byte) (.write byte')

/-- Two histories of the same length whose operations match one by one, the first from a chip. -/
inductive Matches : Chip → List Operation → List Operation → Prop
  | nil (c : Chip) : Matches c [] []
  | cons {c : Chip} {op op' : Operation} {rest rest' : List Operation}
      (head : op.Matches c.latch op') (tail : Matches (c.apply op) rest rest') :
      Matches c (op :: rest) (op' :: rest')

theorem Matches.take {c : Chip} {history history' : List Operation}
    (h : c.Matches history history') (n : Nat) : c.Matches (history.take n) (history'.take n) := by
  induction h generalizing n with
  | nil c =>
      rw [List.take_nil]
      exact .nil c
  | cons head tail ih =>
      cases n with
      | zero => exact .nil _
      | succ n => exact .cons head (ih n)

/-! ### Chips in step -/

/-- The outputs of the voices, high or low. -/
def phases (c : Chip) : PerVoice Bool where
  tone0 := c.tone0.phase
  tone1 := c.tone1.phase
  tone2 := c.tone2.phase
  noise := c.noise.phase

/-- The chip with other volumes and mutes. -/
def withLoudness (c : Chip) (volumes : PerVoice Nat) (mutes : PerVoice Bool) : Chip :=
  { c with
    tone0 := { c.tone0 with volume := volumes.tone0 }
    tone1 := { c.tone1 with volume := volumes.tone1 }
    tone2 := { c.tone2 with volume := volumes.tone2 }
    noise := { c.noise with volume := volumes.noise }
    mutes := mutes }

/-- Two chips that are equal but for their volumes and mutes. -/
def InStep (c c' : Chip) : Prop :=
  c' = c.withLoudness c'.volumes c'.mutes

instance (c c' : Chip) : Decidable (c.InStep c') :=
  inferInstanceAs (Decidable (_ = _))

theorem inStep_withLoudness (c : Chip) (volumes : PerVoice Nat) (mutes : PerVoice Bool) :
    c.InStep (c.withLoudness volumes mutes) := rfl

theorem InStep.refl (c : Chip) : c.InStep c := rfl

variable {c c' c'' : Chip}

theorem InStep.exists_eq (h : c.InStep c') :
    ∃ volumes mutes, c' = c.withLoudness volumes mutes := ⟨_, _, h⟩

theorem InStep.symm (h : c.InStep c') : c'.InStep c := by
  obtain ⟨volumes, mutes, rfl⟩ := h.exists_eq
  rfl

theorem InStep.trans (h : c.InStep c') (h' : c'.InStep c'') : c.InStep c'' := by
  obtain ⟨volumes, mutes, rfl⟩ := h.exists_eq
  obtain ⟨volumes', mutes', rfl⟩ := h'.exists_eq
  rfl

theorem InStep.latch_eq (h : c.InStep c') : c'.latch = c.latch := by
  obtain ⟨volumes, mutes, rfl⟩ := h.exists_eq
  rfl

/-! ### Time and reset -/

theorem clockVoices_withLoudness (c : Chip) (volumes : PerVoice Nat) (mutes : PerVoice Bool) :
    (c.withLoudness volumes mutes).clockVoices = c.clockVoices.withLoudness volumes mutes := by
  simp only [clockVoices, withLoudness, Tone.clock_withVolume, Noise.clock_withVolume]

theorem InStep.cycle (h : c.InStep c') : c.cycle.InStep c'.cycle := by
  obtain ⟨volumes, mutes, rfl⟩ := h.exists_eq
  have hcycle : (c.withLoudness volumes mutes).cycle = c.cycle.withLoudness volumes mutes := by
    by_cases hle : c.divider ≤ 1
    · rw [cycle_of_le hle]
      refine (cycle_of_le (c := c.withLoudness volumes mutes) hle).trans ?_
      rw [clockVoices_withLoudness]
      rfl
    · rw [cycle_of_not_le hle]
      exact cycle_of_not_le (c := c.withLoudness volumes mutes) hle
  rw [hcycle]
  exact inStep_withLoudness _ _ _

theorem InStep.advance (h : c.InStep c') (n : Nat) : (c.advance n).InStep (c'.advance n) := by
  induction n generalizing c c' with
  | zero => exact h
  | succ n ih => exact ih h.cycle

theorem InStep.reset (h : c.InStep c') : c.reset.InStep c'.reset := by
  obtain ⟨volumes, mutes, rfl⟩ := h.exists_eq
  rfl

/-! ### Mute calls and writes -/

theorem inStep_setMute (c : Chip) (index : Nat) (muted : Bool) :
    c.InStep (c.setMute index muted) := by
  unfold setMute
  split <;> rfl

theorem InStep.setMute (h : c.InStep c') (index index' : Nat) (muted muted' : Bool) :
    (c.setMute index muted).InStep (c'.setMute index' muted') :=
  ((c.inStep_setMute index muted).symm.trans h).trans (c'.inStep_setMute index' muted')

/-- A byte that goes to a volume moves the latch, and changes nothing else but the volume. -/
theorem inStep_write_volume {byte : UInt8} (h : (c.latch.after byte).register = .volume) :
    { c with latch := c.latch.after byte }.InStep (c.write byte) := by
  rw [write_eq]
  revert h
  generalize c.latch.after byte = t
  obtain ⟨v, r⟩ := t
  rintro rfl
  cases v <;> rfl

theorem InStep.withLatch (h : c.InStep c') (t : Target) :
    { c with latch := t }.InStep { c' with latch := t } := by
  obtain ⟨volumes, mutes, rfl⟩ := h.exists_eq
  rfl

theorem InStep.writeTo_period (h : c.InStep c') {t : Target} (ht : t.register = .period)
    (w : Width) (d : Nat) : (c.writeTo t w d).InStep (c'.writeTo t w d) := by
  obtain ⟨volumes, mutes, rfl⟩ := h.exists_eq
  obtain ⟨v, r⟩ := t
  obtain rfl : r = .period := ht
  cases v <;> cases w <;> rfl

theorem InStep.write_period (h : c.InStep c') {byte : UInt8}
    (hgoes : (c.latch.after byte).register = .period) :
    (c.write byte).InStep (c'.write byte) := by
  rw [write_eq, write_eq, h.latch_eq]
  exact (h.withLatch _).writeTo_period hgoes _ _

theorem InStep.write_volume (h : c.InStep c') {byte byte' : UInt8}
    (hgoes : (c.latch.after byte).register = .volume) (hcontrol : SameControl byte byte') :
    (c.write byte).InStep (c'.write byte') := by
  have hafter : c'.latch.after byte' = c.latch.after byte := by
    rw [h.latch_eq, hcontrol.after_eq]
  have hmoved : { c with latch := c.latch.after byte }.InStep
      { c' with latch := c'.latch.after byte' } := hafter ▸ h.withLatch _
  have hgoes' : (c'.latch.after byte').register = .volume := hafter ▸ hgoes
  exact ((inStep_write_volume hgoes).symm.trans hmoved).trans (inStep_write_volume hgoes')

theorem InStep.write (h : c.InStep c') (byte : UInt8) : (c.write byte).InStep (c'.write byte) := by
  cases hgoes : (c.latch.after byte).register with
  | period => exact h.write_period hgoes
  | volume =>
      -- the same byte has the same control bits, whatever its form
      refine h.write_volume hgoes ?_
      unfold SameControl
      split <;> rfl

/-- **Operations that match.**  They leave two chips in step that were in step before. -/
theorem InStep.apply (h : c.InStep c') {op op' : Operation} (hop : op.Matches c.latch op') :
    (c.apply op).InStep (c'.apply op') := by
  cases hop with
  | mute index index' muted muted' => exact h.setMute index index' muted muted'
  | volume goes control => exact h.write_volume goes control
  | same =>
      cases op with
      | write byte => exact h.write byte
      | advance cycles => exact h.advance cycles
      | reset => exact h.reset
      | mute index muted => exact h.setMute index index muted muted
      | render cycles count =>
          rw [Chip.apply, Chip.apply, fst_renderSamples, fst_renderSamples]
          exact h.advance _

theorem InStep.run {history history' : List Operation} (h : c.InStep c')
    (hmatch : c.Matches history history') : (c.run history).InStep (c'.run history') := by
  induction hmatch generalizing c' with
  | nil => exact h
  | cons head _ ih => exact ih (h.apply head)

/-- What a chip puts out: the amplitudes of its voices that are high and not muted. -/
theorem sample_eq_sum_audible (c : Chip) :
    c.sample = ∑ v : Voice with c.mutes.get v = false ∧ c.phases.get v = true,
      amplitude (c.volumes.get v) :=
  mix_eq_sum_audible c.mutes c.phases c.volumes c.levels fun v => by cases v <;> rfl

/-- **Loudness never shows in the timing.**  Take two chips in step and two histories that match: the
same but for what the host mutes and for the data bits of bytes that the latch sends to a volume.
After any number of operations the chips are in step, so they have the same latch, prescaler,
periods, counts, outputs, noise control and shift register.  What each of them then puts out is the
sum of the amplitudes of its own volumes, over those of its voices that are high and not muted. -/
theorem run_inStep {c c' : Chip} {history history' : List Operation} (hc : c.InStep c')
    (hmatch : c.Matches history history') (n : Nat) :
    (c.run (history.take n)).InStep (c'.run (history'.take n)) ∧
    ∀ chip ∈ [c.run (history.take n), c'.run (history'.take n)],
      chip.sample = ∑ v : Voice with chip.mutes.get v = false ∧ chip.phases.get v = true,
        amplitude (chip.volumes.get v) :=
  ⟨hc.run (hmatch.take n), fun chip _ => chip.sample_eq_sum_audible⟩

/-- The volume of tone 0 is written twice, at levels that differ, the second time by a data byte, and
one host mutes the tone: at its first clock one chip stays silent and the other is heard. -/
theorem run_inStep_muted_tone :
    let quiet := powerOn.run [.write 0x9F, .write 0x0A, .mute 0 true, .advance 16]
    let loud := powerOn.run [.write 0x90, .write 0x01, .mute 3 true, .advance 16]
    quiet.InStep loud ∧ quiet.sample = 0 ∧ loud.sample = 0x196A := by
  have hmatch : powerOn.Matches [.write 0x9F, .write 0x0A, .mute 0 true, .advance 16]
      [.write 0x90, .write 0x01, .mute 3 true, .advance 16] :=
    .cons (.volume rfl rfl) (.cons (.volume rfl rfl) (.cons (.mute 0 3 true true)
      (.cons (.same _) (.nil _))))
  exact ⟨(run_inStep (.refl powerOn) hmatch 4).1, by decide, by decide⟩

end Chip

end Chiptune
