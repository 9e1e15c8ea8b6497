import Chiptune.Proofs.Chip.Mutes
import Chiptune.Proofs.Chip.Ranges

/-!
# Chip — Checked steps

The chip on machine words, where a step can go wrong: a divider without a sign cannot be counted
below zero, a table or the row of tones cannot be asked for an entry it does not have, and a sum of
amplitudes may not fit its word.  Such a step has no result (`cycle?`, `writeTo?`, `nextPeriod?`,
`sample?`); a step that is right has the result of the chip.

In the ranges of `InRange` no step goes wrong (`InRange.perform?_eq`), so no history of a chip that
came up from power-on does (`run_powerOn_checked`).
-/

namespace Chiptune

/-! ### Words -/

/-- One less than a word without a sign. -/
def pred? (n : Nat) : Option Nat :=
  if n = 0 then none else some (n - 1)

/-- One less than a signed word of thirty-two bits. -/
def countDown? (n : Int) : Option Int :=
  if -0x80000000 ≤ n - 1 then some (n - 1) else none

/-- The sum of two signed words of sixteen bits. -/
def addWord? (a b : Int) : Option Int :=
  if -0x8000 ≤ a + b ∧ a + b ≤ 0x7FFF then some (a + b) else none

theorem pred?_eq {n : Nat} (h : 1 ≤ n) : pred? n = some (n - 1) :=
  if_neg (Nat.ne_of_gt h)

theorem countDown?_eq (n : Nat) : countDown? n = some ((n : Int) - 1) :=
  if_pos (by omega)

theorem addWord?_eq {a b : Nat} (h : a + b ≤ 0x7FFF) : addWord? a b = some ((a + b : Nat) : Int) :=
  if_pos (by omega)

/-! ### The mixer -/

/-- The amplitude of a level, looked up by number. -/
def amplitude? (level : Nat) : Option Nat :=
  amplitudes.toList[level % 16]?

/-- A running sum with the amplitude of one more voice. -/
def mixStep? (mutes : PerVoice Bool) (levels : PerVoice Nat) (sum : Int) (v : Voice) : Option Int :=
  if mutes.get v then some sum else (amplitude? (levels.get v)).bind fun a => addWord? sum a

theorem amplitude?_eq (level : Nat) : amplitude? level = some (amplitude level) := by
  have h : level % 16 < amplitudes.toList.length := Nat.mod_lt level (by decide)
  rw [amplitude?, List.getElem?_eq_getElem h]
  rfl

theorem mixStep?_eq (mutes : PerVoice Bool) (levels : PerVoice Nat) {sum : Nat} (v : Voice)
    (h : sum ≤ 0x7FFF - 0x1FFF) :
    mixStep? mutes levels sum v = some ((sum + contribution (mutes.get v) (levels.get v) : Nat)) := by
  have hle := amplitude_le (levels.get v)
  unfold mixStep?
  cases mutes.get v with
  | true => rfl
  | false => rw [amplitude?_eq]; exact addWord?_eq (by omega)

/-- Every partial sum of the mix of some voices fits its word if the voices are few enough. -/
theorem foldlM_mixStep? (mutes : PerVoice Bool) (levels : PerVoice Nat) (voices : List Voice)
    (sum : Nat) (h : sum + 0x1FFF * voices.length ≤ 0x7FFF) :
    voices.foldlM (mixStep? mutes levels) (sum : Int) =
      some ((sum + (voices.map fun v => contribution (mutes.get v) (levels.get v)).sum : Nat)) := by
  induction voices generalizing sum with
  | nil => rfl
  | cons v rest ih =>
      rw [List.length_cons] at h
      have hle := contribution_le (mutes.get v) (levels.get v)
      -- the bound leaves room for one amplitude less, which is what the rest needs
      rw [List.foldlM_cons, mixStep?_eq mutes levels v (by omega)]
      refine (ih _ (by omega)).trans ?_
      rw [List.map_cons, List.sum_cons, Nat.add_assoc]

/-! ### The voices -/

/-- One channel clock of a tone. -/
def Tone.clock? (t : Tone) : Option Tone :=
  (countDown? t.counter).bind fun count =>
    if count ≤ 0 then some { t with counter := t.period, phase := !t.phase }
    else some { t with counter := count.toNat }

theorem Tone.clock?_eq (t : Tone) : t.clock? = some t.clock := by
  rw [clock?, countDown?_eq, Option.bind_some, clock]
  by_cases h : t.counter ≤ 1
  · rw [if_pos h, if_pos (by omega)]
  · have hcount : ((t.counter : Int) - 1).toNat = t.counter - 1 := by omega
    rw [if_neg h, if_neg (by omega), hcount]

/-- The fixed periods of the noise, by rate. -/
def fixedPeriods : List Nat := [0x10, 0x20, 0x40]

/-- The value the noise counter starts again from, looked up by number. -/
def Noise.nextPeriod? (n : Noise) (tone2Period : Nat) : Option Nat :=
  if n.rate.bits = 3 then some tone2Period else fixedPeriods[n.rate.bits]?

theorem Noise.nextPeriod?_eq (n : Noise) (tone2Period : Nat) :
    n.nextPeriod? tone2Period = some (n.nextPeriod tone2Period) := by
  unfold nextPeriod? nextPeriod
  cases n.rate <;> rfl

/-- One channel clock of the noise. -/
def Noise.clock? (n : Noise) (tone2Period : Nat) : Option Noise :=
  (countDown? n.counter).bind fun count =>
    if count ≤ 0 then
      (n.nextPeriod? tone2Period).map fun period => { n.cross with counter := period }
    else some { n with counter := count.toNat }

theorem Noise.clock?_eq (n : Noise) (tone2Period : Nat) :
    n.clock? tone2Period = some (n.clock tone2Period) := by
  rw [clock?, countDown?_eq, Option.bind_some, clock]
  by_cases h : n.counter ≤ 1
  · rw [if_pos h, if_pos (by omega), nextPeriod?_eq, Option.map_some]
  · have hcount : ((n.counter : Int) - 1).toNat = n.counter - 1 := by omega
    rw [if_neg h, if_neg (by omega), hcount]

/-! ### The chip -/

namespace Chip

/-- A chip with a tone replaced by number. -/
def setTone? (c : Chip) (index : Nat) (t : Tone) : Option Chip :=
  match index with
  | 0 => some { c with tone0 := t }
  | 1 => some { c with tone1 := t }
  | 2 => some { c with tone2 := t }
  | _ => none

/-- Write data to a register of a voice; number 3 is the noise, any other a place in the row of
tones. -/
def writeTo? (c : Chip) (target : Target) (width : Width) (data : Nat) : Option Chip :=
  if target.voice.index = 3 then some { c with noise := c.noise.write target.register data }
  else
    (c.tone? target.voice.index).bind fun t =>
      c.setTone? target.voice.index (t.write target.register width data)

/-- Write a byte. -/
def write? (c : Chip) (byte : UInt8) : Option Chip :=
  match BusWrite.decode byte with
  | .latch target data => { c with latch := target }.writeTo? target .narrow data
  | .data data => c.writeTo? c.latch .wide data

/-- One clock of all four voices. -/
def clockVoices? (c : Chip) : Option Chip := do
  let tone0 ← c.tone0.clock?
  let tone1 ← c.tone1.clock?
  let tone2 ← c.tone2.clock?
  let noise ← c.noise.clock? tone2.period
  return { c with tone0 := tone0, tone1 := tone1, tone2 := tone2, noise := noise }

/-- One cycle of the master clock. -/
def cycle? (c : Chip) : Option Chip :=
  (pred? c.divider).bind fun divider =>
    if divider = 0 then c.clockVoices?.map fun c => { c with divider := prescale }
    else some { c with divider := divider }

/-- A number of cycles of the master clock. -/
def advance? (c : Chip) : Nat → Option Chip
  | 0 => some c
  | n + 1 => c.cycle?.bind fun c => c.advance? n

/-- The mixed output, summed voice by voice. -/
def sample? (c : Chip) : Option Int :=
  Voice.all.foldlM (mixStep? c.mutes c.levels) 0

/-- Render `count` samples of `cycles` cycles each, adding them to `samples`. -/
def renderSamples? (c : Chip) (samples : Array Int) (cycles : Nat) : Nat → Option (Chip × Array Int)
  | 0 => some (c, samples)
  | count + 1 => do
    let c ← c.advance? cycles
    let sample ← c.sample?
    renderSamples? c (samples.push sample) cycles count

/-- One operation of the host. -/
def perform? (c : Chip) : Operation → Option Chip
  | .write byte => c.write? byte
  | .advance cycles => c.advance? cycles
  | .render cycles count => (c.renderSamples? #[] cycles count).map Prod.fst
  | .reset => some c.reset
  | .mute index muted => some (c.setMute index muted)

/-- A history of operations. -/
def run? (c : Chip) (history : List Operation) : Option Chip :=
  history.foldlM perform? c

theorem writeTo?_eq (c : Chip) (target : Target) (width : Width) (data : Nat) :
    c.writeTo? target width data = some (c.writeTo target width data) := by
  unfold writeTo? writeTo
  cases target.voice <;> rfl

theorem write?_eq (c : Chip) (byte : UInt8) : c.write? byte = some (c.write byte) := by
  unfold write? write
  cases BusWrite.decode byte with
  | latch target data => exact writeTo?_eq _ _ _ _
  | data data => exact writeTo?_eq _ _ _ _

theorem clockVoices?_eq (c : Chip) : c.clockVoices? = some c.clockVoices := by
  simp only [clockVoices?, Tone.clock?_eq, Noise.clock?_eq]
  rfl

/-- The sum over the voices, one by one, is the mix. -/
theorem sample?_eq (c : Chip) : c.sample? = some (c.sample : Int) := by
  rw [sample, mix_eq_sum, ← Nat.zero_add (List.sum _)]
  exact foldlM_mixStep? c.mutes c.levels Voice.all 0 (by decide)

namespace InRange

variable {c : Chip}

theorem cycle?_eq (h : c.InRange) : c.cycle? = some c.cycle := by
  have hpos := h.divider_pos
  rw [cycle?, pred?_eq hpos, Option.bind_some, Chip.cycle]
  by_cases hle : c.divider ≤ 1
  · rw [if_pos hle, if_pos (by omega), clockVoices?_eq, Option.map_some]
  · rw [if_neg hle, if_neg (by omega)]

theorem advance?_eq (h : c.InRange) (n : Nat) : c.advance? n = some (c.advance n) := by
  induction n generalizing c with
  | zero => rfl
  | succ n ih =>
      rw [advance?, h.cycle?_eq, Option.bind_some]
      exact ih h.cycle

theorem renderSamples?_eq (h : c.InRange) (samples : Array Int) (cycles count : Nat) :
    c.renderSamples? samples cycles count =
      some (SoundDevice.renderSamples c samples cycles count) := by
  induction count generalizing c samples with
  | zero => rfl
  | succ count ih =>
      simp only [renderSamples?, h.advance?_eq, sample?_eq]
      exact ih (h.advance cycles) _

/-- In range, every operation has its result. -/
theorem perform?_eq (h : c.InRange) (op : Operation) : c.perform? op = some (c.apply op) := by
  cases op with
  | write byte => exact write?_eq c byte
  | advance cycles => exact h.advance?_eq cycles
  | render cycles count =>
      rw [perform?, h.renderSamples?_eq, Option.map_some]
      rfl
  | reset => rfl
  | mute index muted => rfl

theorem run?_eq (h : c.InRange) (history : List Operation) :
    c.run? history = some (c.run history) := by
  induction history generalizing c with
  | nil => rfl
  | cons op rest ih =>
      rw [run?, List.foldlM_cons, h.perform?_eq]
      exact ih (h.apply op)

end InRange

/-- **Nothing goes wrong after power-on.**  After every history of operations the chip is in range
and its output lies between 0 and 32764, every partial sum of it in a signed word of sixteen bits.
No operation of the history went wrong, and none that may follow does. -/
theorem run_powerOn_checked (history : List Operation) :
    (powerOn.run history).InRange ∧
      (powerOn.run history).sample ≤ 32764 ∧
      (powerOn.run history).sample? = some ((powerOn.run history).sample : Int) ∧
      powerOn.run? history = some (powerOn.run history) ∧
      ∀ op, (powerOn.run history).perform? op = some ((powerOn.run history).apply op) := by
  have hrange := InRange.powerOn.run history
  refine ⟨hrange, mix_le _ _, sample?_eq _, InRange.powerOn.run?_eq history, fun op => ?_⟩
  exact hrange.perform?_eq op

end Chip

end Chiptune
