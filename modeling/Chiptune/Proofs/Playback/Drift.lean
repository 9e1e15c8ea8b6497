import Chiptune.Proofs.Playback.Accounts

/-!
# Playback — Drift

A sample takes a whole number of chip cycles, so what the clock has over is left out with every
sample, and the chip falls behind.

* `ChipTime.drift_eq`: the drift is what is left out of all samples together, in whole cycles.
* `ChipTime.lags`: so it is never negative, less than a cycle for each sample, and does not go
  back.  On words of sixty-four bits every sum, product and difference on the way fits
  (`ChipTime.advance?`, `ChipTime.lag?`).
* `Player.cycles_of_first_finished`: up to the first run that finishes, a player gives its device
  that whole number of cycles for each of the samples which the run hands out, whatever the waits
  were and wherever they were cut.
* `Player.drift_reported`: so this is the drift that the run reports.

The clock is a word of thirty-two bits, and so is the declared length, which bounds the samples of a
run.  From two samples in a second on, the cycles fit a signed word.
-/

namespace Chiptune

/-! ### Words -/

/-- A number that fits a word of sixty-four bits without a sign. -/
def longWord? (n : Nat) : Option Nat :=
  if n < Nat.pow 2 64 then some n else none

/-- A number that fits a signed word of sixty-four bits. -/
def signedWord? (n : Int) : Option Int :=
  if -(Nat.pow 2 63 : Nat) ≤ n ∧ n < (Nat.pow 2 63 : Nat) then some n else none

theorem longWord?_eq {n : Nat} (h : n < Nat.pow 2 64) : longWord? n = some n := by
  rw [longWord?, if_pos h]

theorem signedWord?_natCast {n : Nat} (h : n < Nat.pow 2 63) : signedWord? n = some (n : Int) := by
  rw [signedWord?, if_pos (by omega)]

/-- Of two amounts that fit, so does the difference. -/
theorem signedWord?_sub {m n : Nat} (hm : m < Nat.pow 2 63) (hn : n < Nat.pow 2 63) :
    signedWord? (m - n) = some ((m : Int) - n) := by
  rw [signedWord?, if_pos (by omega)]

/-- Read as signed, a word below the sign bit keeps its value. -/
theorem signedWord_of_lt {n : Nat} (h : n < Nat.pow 2 63) : signedWord n = n := by
  have hlow : Nat.pow 2 64 / 2 = Nat.pow 2 63 := by decide
  have hhigh : (Nat.pow 2 64 + 1) / 2 = Nat.pow 2 63 := by decide
  exact Int.bmod_eq_of_le (by omega) (by omega)

namespace ChipTime

/-- More cycles, one amount after the other. -/
def advanceAll (t : ChipTime) (amounts : List Nat) : ChipTime :=
  amounts.foldl advance t

/-- More cycles, if the count of them still fits its word. -/
def advance? (t : ChipTime) (n : Nat) : Option ChipTime :=
  (longWord? (t.cycles + n)).map ChipTime.mk

/-- The drift, if nothing on the way to it fails to fit its word: the product of clock and samples,
the two amounts of cycles read as signed, and their difference. -/
def lag? (t : ChipTime) (clock samples rate : Nat) : Option Int :=
  (longWord? (clock * samples)).bind fun product =>
    (signedWord? (product / rate : Nat)).bind fun expected =>
      (signedWord? t.cycles).bind fun given => signedWord? (expected - given)

theorem cycles_advanceAll (t : ChipTime) (amounts : List Nat) :
    (t.advanceAll amounts).cycles = t.cycles + amounts.sum := by
  induction amounts generalizing t with
  | nil => rfl
  | cons n rest ih => exact (ih (t.advance n)).trans (Nat.add_assoc _ _ _)

/-- If the last count fits its word, so does every one before it. -/
theorem foldlM_advance? (t : ChipTime) {amounts : List Nat}
    (h : t.cycles + amounts.sum < Nat.pow 2 64) :
    amounts.foldlM advance? t = some (t.advanceAll amounts) := by
  induction amounts generalizing t with
  | nil => rfl
  | cons n rest ih =>
      rw [List.sum_cons, ← Nat.add_assoc] at h
      have hfirst : t.cycles + n < Nat.pow 2 64 := Nat.lt_of_le_of_lt (Nat.le_add_right _ _) h
      rw [List.foldlM_cons, advance?, longWord?_eq hfirst]
      exact ih (t.advance n) h

/-! ### What whole cycles leave out -/

section

variable {t : ChipTime} {clock samples rate : Nat}

/-- The cycles of some samples are the whole ones of each, and what the rest of the clock adds up
to. -/
theorem expectedCycles_eq (hrate : 0 < rate) :
    expectedCycles clock samples rate =
      samples * (clock / rate) + samples * (clock % rate) / rate := by
  have hproduct : clock * samples =
      rate * (samples * (clock / rate)) + samples * (clock % rate) := by
    calc clock * samples
        = samples * (rate * (clock / rate) + clock % rate) := by
          rw [Nat.div_add_mod, Nat.mul_comm]
      _ = rate * (samples * (clock / rate)) + samples * (clock % rate) := by
          rw [Nat.mul_add, Nat.mul_left_comm]
  rw [expectedCycles, hproduct, Nat.mul_add_div hrate]

theorem wholeCycles_le (hrate : 0 < rate) :
    samples * (clock / rate) ≤ expectedCycles clock samples rate := by
  rw [expectedCycles_eq hrate]
  exact Nat.le_add_right _ _

theorem product_lt (hclock : clock < Nat.pow 2 32) (hsamples : samples < Nat.pow 2 32) :
    clock * samples < Nat.pow 2 64 := by
  have hword : Nat.pow 2 32 * Nat.pow 2 32 = Nat.pow 2 64 := by decide
  rw [← hword]
  exact Nat.mul_lt_mul'' hclock hsamples

/-- At two samples in a second or more, the cycles of a word of samples fit a signed word. -/
theorem expectedCycles_lt (hclock : clock < Nat.pow 2 32) (hsamples : samples < Nat.pow 2 32)
    (hrate : 2 ≤ rate) : expectedCycles clock samples rate < Nat.pow 2 63 := by
  have hproduct : clock * samples < 2 * Nat.pow 2 63 := product_lt hclock hsamples
  calc expectedCycles clock samples rate
      ≤ clock * samples / 2 := Nat.div_le_div_left hrate (by decide)
    _ < Nat.pow 2 63 := Nat.div_lt_of_lt_mul hproduct

section

variable (hclock : clock < Nat.pow 2 32) (hsamples : samples < Nat.pow 2 32) (hrate : 2 ≤ rate)
  (hcycles : t.cycles = samples * (clock / rate))

include hclock hsamples hrate hcycles

theorem cycles_lt : t.cycles < Nat.pow 2 63 := by
  rw [hcycles]
  exact Nat.lt_of_le_of_lt (wholeCycles_le (by omega)) (expectedCycles_lt hclock hsamples hrate)

/-- After so many samples of whole cycles, the drift is what is left out of all of them together. -/
theorem drift_eq : t.drift clock samples rate = (samples * (clock % rate) / rate : Nat) := by
  rw [drift, signedWord_of_lt (expectedCycles_lt hclock hsamples hrate),
    signedWord_of_lt (cycles_lt hclock hsamples hrate hcycles), expectedCycles_eq (by omega),
    hcycles, Int.natCast_add, add_sub_cancel_left]

/-- None of the words on the way to that drift overflows. -/
theorem lag?_eq : t.lag? clock samples rate = some (t.drift clock samples rate) := by
  have hexpected : clock * samples / rate < Nat.pow 2 63 := expectedCycles_lt hclock hsamples hrate
  have hgiven := cycles_lt hclock hsamples hrate hcycles
  rw [lag?, longWord?_eq (product_lt hclock hsamples), Option.bind_some,
    signedWord?_natCast hexpected, Option.bind_some, signedWord?_natCast hgiven, Option.bind_some,
    signedWord?_sub hexpected hgiven, drift, expectedCycles, signedWord_of_lt hexpected,
    signedWord_of_lt hgiven]

end

end

/-- What there is to know of the drift of a chip that got whole cycles for so many samples. -/
structure Lags (t : ChipTime) (clock samples rate : Nat) : Prop where
  /-- The drift is what is left out of all samples together. -/
  value : t.drift clock samples rate = (samples * (clock % rate) / rate : Nat)
  /-- Nothing on the way to it overflows. -/
  fits : t.lag? clock samples rate = some (t.drift clock samples rate)
  /-- The samples are never ahead of the clock, -/
  nonneg : 0 ≤ t.drift clock samples rate
  /-- and less than a cycle behind for each of them. -/
  lt : 0 < samples → t.drift clock samples rate < samples
  /-- They are on time as long as what is left out is less than a cycle in all. -/
  eq_zero_iff : t.drift clock samples rate = 0 ↔ samples * (clock % rate) < rate
  /-- After fewer samples, the drift was no larger. -/
  mono : ∀ (fewer : Nat) (before : ChipTime), fewer ≤ samples →
    before.cycles = fewer * (clock / rate) →
    before.drift clock fewer rate ≤ t.drift clock samples rate

theorem lags {t : ChipTime} {clock samples rate : Nat} (hclock : clock < Nat.pow 2 32)
    (hsamples : samples < Nat.pow 2 32) (hrate : 2 ≤ rate)
    (hcycles : t.cycles = samples * (clock / rate)) : t.Lags clock samples rate := by
  have hvalue := drift_eq hclock hsamples hrate hcycles
  have hpos : 0 < rate := by omega
  refine ⟨hvalue, lag?_eq hclock hsamples hrate hcycles, ?_, fun hsome => ?_, ?_,
    fun fewer before hle hbefore => ?_⟩
  · rw [hvalue]
    exact Int.natCast_nonneg _
  · have hlt : samples * (clock % rate) < rate * samples := by
      rw [Nat.mul_comm]
      exact Nat.mul_lt_mul_of_pos_right (Nat.mod_lt clock hpos) hsome
    rw [hvalue]
    exact Int.ofNat_lt.mpr (Nat.div_lt_of_lt_mul hlt)
  · rw [hvalue, Int.natCast_eq_zero, Nat.div_eq_zero_iff_lt hpos]
  · rw [hvalue, drift_eq hclock (Nat.lt_of_le_of_lt hle hsamples) hrate hbefore]
    exact Int.ofNat_le.mpr (Nat.div_le_div_right (Nat.mul_le_mul_right _ hle))

end ChipTime

/-! ### What a player reports -/

/-- Clock and length are read from words of thirty-two bits. -/
theorem Header.fields_lt (image : ByteArray) :
    (fields image).clock < Nat.pow 2 32 ∧ (fields image).totalSamples < Nat.pow 2 32 := by
  have hflags : Nat.pow 2 30 ≤ Nat.pow 2 32 := by decide
  exact ⟨Nat.lt_of_lt_of_le (Nat.mod_lt _ (Nat.two_pow_pos 30)) hflags, leWord_lt image 0x18 4⟩

namespace Player

variable {σ : Type}

/-- The last thing a finished run reports is the drift. -/
theorem getLast?_runNotices (announce : UInt8 → List Notice) (p q : Player σ) (r : Rendering) :
    (p.runNotices announce q (.ok r)).getLast? =
      some (.drift ((ChipTime.mk r.chipCycles).drift p.clock r.samples.size sampleRate)
        r.samples.size) :=
  List.getLast?_concat

variable [SoundDevice σ]

/-- What a finished run hands out is what its walk has left. -/
theorem exists_rendering_of_run {p : Player σ} {r : Rendering} (h : p.run.1 = .ok r) :
    ∃ marker, r = p.walk.2.rendering marker := by
  unfold run at h
  split at h
  case h_1 q hq | h_2 q hq =>
    rw [hq]
    exact ⟨_, (Except.ok.inj h).symm⟩
  case h_3 => cases h

/-- Up to the first run that finishes, the device got the whole cycles of each sample that the run
hands out, which are no more than declared. -/
theorem cycles_of_first_finished {image : ByteArray} {header : Header} {device : σ} {m : Nat}
    {r : Rendering} (hfirst : ∀ r', Except.ok r' ∉ ((start image header device).runs m).1)
    (hr : ((start image header device).runs m).2.run.1 = .ok r) :
    ((start image header device).runs m).2.clock = header.clock ∧
      r.samples.size ≤ header.totalSamples ∧
      r.chipCycles = r.samples.size * (header.clock / 44100) := by
  obtain ⟨hresults, hplayer⟩ := (start image header (Taped.new device)).untaped_runs m
  obtain ⟨is, hbefore⟩ := Accounts.runs image header device m
  obtain ⟨js, hafter⟩ := hbefore.walk
  change _ = ((start image header device).runs m).1 at hresults
  change _ = ((start image header device).runs m).2 at hplayer
  rw [← hresults] at hfirst
  rw [← hplayer, ← (untaped_run _).1] at hr
  rw [← hplayer]
  obtain ⟨marker, rfl⟩ := exists_rendering_of_run hr
  refine ⟨hbefore.sameClock, hafter.held, hafter.cycles.trans ?_⟩
  rw [hafter.given, handedOut_eq_zero hfirst, Nat.zero_add, Nat.mul_comm]
  rfl

/-- **The drift.**  Whatever a chip was given bit by bit, if it adds up to the whole cycles of so
many samples, the drift is what those leave out of the clock, in whole cycles: never negative, less
than a cycle for each sample, none as long as less than a cycle is left out in all, and no smaller
after more samples.  Nothing on the way overflows.

This is the drift that a player reports at the end of its first finished run on any device, for the
samples that the run hands out.  Clock and length are words of thirty-two bits, as in the header of
any image. -/
theorem drift_reported :
    (∀ (clock samples rate : Nat) (amounts : List Nat), clock < Nat.pow 2 32 →
      samples < Nat.pow 2 32 → 2 ≤ rate → amounts.sum = samples * (clock / rate) →
      let time := ChipTime.zero.advanceAll amounts
      amounts.foldlM ChipTime.advance? .zero = some time ∧ time.Lags clock samples rate) ∧
    (∀ image, (Header.fields image).clock < Nat.pow 2 32 ∧
      (Header.fields image).totalSamples < Nat.pow 2 32) ∧
    ∀ {σ : Type} [SoundDevice σ] (announce : UInt8 → List Notice) (image : ByteArray)
      (header : Header) (device : σ) (m : Nat) (r : Rendering),
      header.clock < Nat.pow 2 32 → header.totalSamples < Nat.pow 2 32 →
      let before := ((start image header device).runs m).2
      (∀ r', Except.ok r' ∉ ((start image header device).runs m).1) → before.run.1 = .ok r →
      let samples := r.samples.size
      (before.runNotices announce before.run.2 before.run.1).getLast? =
        some (.drift (samples * (header.clock % 44100) / 44100 : Nat) samples) ∧
      (ChipTime.mk r.chipCycles).Lags header.clock samples 44100 := by
  refine ⟨?_, Header.fields_lt, ?_⟩
  · intro clock samples rate amounts hclock hsamples hrate hsum time
    have hcycles : time.cycles = samples * (clock / rate) := by
      rw [ChipTime.cycles_advanceAll, hsum]
      exact Nat.zero_add _
    refine ⟨ChipTime.foldlM_advance? _ ?_, ChipTime.lags hclock hsamples hrate hcycles⟩
    rw [← ChipTime.cycles_advanceAll]
    exact Nat.lt_trans (ChipTime.cycles_lt hclock hsamples hrate hcycles) (by decide)
  · intro σ _ announce image header device m r hclock htotal before hfirst hr samples
    obtain ⟨hsame, hle, hcycles⟩ := cycles_of_first_finished hfirst hr
    have hlags : (ChipTime.mk r.chipCycles).Lags header.clock samples 44100 :=
      ChipTime.lags hclock (Nat.lt_of_le_of_lt hle htotal) (by decide) hcycles
    refine ⟨?_, hlags⟩
    rw [hr, getLast?_runNotices, hsame]
    exact congrArg (fun drift => some (Notice.drift drift samples)) hlags.value

/-- A second at 3579545 Hz, given in three amounts, is 7445 cycles short of the clock.  A wait for
ten samples is cut to the six that are declared, and these are one cycle short. -/
theorem drift_reported_cut_wait :
    (∃ time, [81 * 735, 0, 81 * 43365].foldlM ChipTime.advance? .zero = some time ∧
      time.drift 3579545 44100 44100 = 7445) ∧
    let image : ByteArray := ⟨#[0x79]⟩
    let header := { Header.fields image with clock := 3579545, totalSamples := 6, dataOffset := 0 }
    let first := start image header Chip.powerOn
    ∃ r, first.run.1 = .ok r ∧ r.samples.size = 6 ∧
      (first.runNotices Chip.announce first.run.2 first.run.1).getLast? = some (.drift 1 6) := by
  obtain ⟨hgiven, -, hreported⟩ := drift_reported
  constructor
  · obtain ⟨htime, hlags⟩ := hgiven 3579545 44100 44100 [81 * 735, 0, 81 * 43365] (by decide)
      (by decide) (by decide) (by decide)
    exact ⟨_, htime, hlags.value⟩
  · intro image header first
    have hread : Score.read image 0 = ⟨[.shortWait 9], .outOfData 1⟩ := by
      rw [Score.read_of_ok (i := .shortWait 9) rfl, Score.read_of_end (by decide)]
      rfl
    have hplan : first.plan = ⟨DeviceEvent.rendering 81 6, [.shortWait 9], .complete⟩ := by
      show (Score.read image 0).plan (3579545 / 44100) 6 0 = _
      rw [hread]
      rfl
    have hrun : first.run.1 = .ok ((first.carryOut first.plan).rendering false) := by
      rw [run_eq_carryOut, hplan]
    have hsize : ((first.carryOut first.plan).rendering false).samples.size = 6 := by
      show (first.carryOut first.plan).samples.size = 6
      rw [size_samples_carryOut, hplan, DeviceEvent.readings_rendering]
      rfl
    obtain ⟨hdrift, -⟩ := hreported Chip.announce image header Chip.powerOn 0 _ (by decide)
      (by decide) (fun _ h => nomatch h) hrun
    have hlag : ((6 * (header.clock % 44100) / 44100 : Nat) : Int) = 1 := by
      show ((6 * (3579545 % 44100) / 44100 : Nat) : Int) = 1
      rfl
    rw [hsize, hlag] at hdrift
    exact ⟨_, hrun, hsize, hdrift⟩

end Player

end Chiptune
