import Chiptune.Proofs.Chip.Countdown
import Chiptune.Proofs.Chip.Ranges
import Chiptune.Proofs.Chip.Signals

/-!
# Chip — Crossings

The noise *crosses* when its count runs out.  Every second crossing is a *shift*: the output takes
bit 0 of the shift register, and the register moves on.  Nothing else that happens to a chip, short
of a reset, touches the output, the register, or the toggle that says which crossings are shifts.

* `Noise.Through`: from one noise to another by way of some crossings, and nothing in between that
  touches those three.  `Chip.through_run`: so goes the noise of a chip along a history.
* `Noise.Through.outputs_eq`: what comes out is then what the register alone puts out, shifted with
  the feedback the noise has at each shift (`ShiftRegister.outputs`).
* `noise_recurrence`: sixteen outputs are the bits of the register at the start, and each one after
  that is fed back from the outputs sixteen and thirteen before it.

Every bit of the register is an output to come: bit `i` moves down one place with each shift and is
at bit 0 after `i` of them (`getElem_outputs_of_lt`).  So the bit fed in at the top, which is made
from bits 0 and 3, is the output sixteen shifts later, made from the present one and the third one
after it (`getElem_outputs_add`).
-/

namespace Chiptune

/-! ### What a shift register puts out -/

namespace ShiftRegister

/-- The bits a register puts out in a number of shifts, each with or without white feedback. -/
def outputs (r : ShiftRegister) : List Bool → List Bool
  | [] => []
  | white :: rest => r.getLsbD 0 :: outputs (shift white r) rest

theorem length_outputs (r : ShiftRegister) (whites : List Bool) :
    (outputs r whites).length = whites.length := by
  induction whites generalizing r with
  | nil => rfl
  | cons white rest ih => rw [outputs, List.length_cons, List.length_cons, ih]

/-- The bits of a register are its next sixteen outputs. -/
theorem getElem_outputs_of_lt (r : ShiftRegister) (whites : List Bool) {n : Nat}
    (hn : n < (outputs r whites).length) (hbit : n < 16) :
    (outputs r whites)[n] = r.getLsbD n := by
  induction whites generalizing r n with
  | nil => exact absurd hn (Nat.not_lt_zero n)
  | cons white rest ih =>
      cases n with
      | zero => rfl
      | succ n =>
          refine (ih (shift white r) (Nat.lt_of_succ_lt_succ hn) (by omega)).trans ?_
          rw [getLsbD_shift white r (by omega), if_neg (by omega)]

/-- An output is fed back from the ones sixteen and thirteen before it. -/
theorem getElem_outputs_add (r : ShiftRegister) (whites : List Bool) {n : Nat}
    (hn : n + 16 < (outputs r whites).length) (hwhite : n < whites.length) :
    (outputs r whites)[n + 16] =
      ((outputs r whites)[n] ^^ (whites[n] && (outputs r whites)[n + 3])) := by
  induction whites generalizing r n with
  | nil => exact absurd hn (Nat.not_lt_zero _)
  | cons white rest ih =>
      have hrest : n + 15 < (outputs (shift white r) rest).length := Nat.lt_of_succ_lt_succ hn
      cases n with
      | succ n => exact ih (shift white r) hrest (Nat.lt_of_succ_lt_succ hwhite)
      | zero =>
          -- the top bit after this shift, and bits 0 and 3 before it
          have htop : (outputs (shift white r) rest)[15] = feedback white r := by
            rw [getElem_outputs_of_lt _ _ hrest (by omega), getLsbD_shift white r (by omega),
              if_pos rfl]
          have hthird : (outputs r (white :: rest))[3] = r.getLsbD 3 :=
            getElem_outputs_of_lt r _ (by omega) (by omega)
          rw [feedback, ← hthird] at htop
          exact htop

end ShiftRegister

/-! ### Crossings of the noise -/

/-- A crossing: the noise just before the count runs out, and just after. -/
structure Crossing where
  before : Noise
  after : Noise
  deriving DecidableEq

namespace Crossing

/-- Whether a crossing is a shift: the toggle was clear. -/
def shifts (x : Crossing) : Bool :=
  !x.before.toggle

/-- What the noise puts out after a crossing. -/
def output (x : Crossing) : Bool :=
  x.after.phase

/-- Whether the feedback is that of white noise at a crossing. -/
def white (x : Crossing) : Bool :=
  x.before.white

end Crossing

namespace Noise

theorem cross_of_set {n : Noise} (h : n.toggle = true) : n.cross = { n with toggle := false } :=
  if_pos h

theorem cross_of_clear {n : Noise} (h : n.toggle = false) :
    n.cross =
      { n with
        toggle := true
        phase := n.register.getLsbD 0
        register := ShiftRegister.shift n.white n.register } :=
  if_neg (Bool.eq_false_iff.mp h)

/-- Two noises with the same toggle, the same output and the same contents of the shift register. -/
structure SameBits (n n' : Noise) : Prop where
  toggle : n'.toggle = n.toggle
  phase : n'.phase = n.phase
  register : n'.register = n.register

namespace SameBits

variable {n n' n'' : Noise}

theorem refl (n : Noise) : n.SameBits n :=
  ⟨rfl, rfl, rfl⟩

theorem trans (h : n.SameBits n') (h' : n'.SameBits n'') : n.SameBits n'' :=
  ⟨h'.toggle.trans h.toggle, h'.phase.trans h.phase, h'.register.trans h.register⟩

/-- What a crossing does to the bits: every second one is a shift. -/
theorem of_cross (h : n.cross.SameBits n') :
    n'.toggle = !n.toggle ∧
      (n.toggle = true → n'.phase = n.phase ∧ n'.register = n.register) ∧
      (n.toggle = false → n'.phase = n.register.getLsbD 0 ∧
        n'.register = ShiftRegister.shift n.white n.register) := by
  obtain ⟨htoggle, hphase, hregister⟩ := h
  cases hset : n.toggle with
  | true =>
      rw [cross_of_set hset] at htoggle hphase hregister
      exact ⟨htoggle, fun _ => ⟨hphase, hregister⟩, nofun⟩
  | false =>
      rw [cross_of_clear hset] at htoggle hphase hregister
      exact ⟨htoggle, nofun, fun _ => ⟨hphase, hregister⟩⟩

end SameBits

/-- From one noise to another by way of some crossings, and nothing else that touches the toggle, the
output or the shift register. -/
inductive Through : Noise → List Crossing → Noise → Prop where
  | still {n n' : Noise} (h : n.SameBits n') : Through n [] n'
  | cross {n n' : Noise} {x : Crossing} {rest : List Crossing} (before : n.SameBits x.before)
      (crossed : x.before.cross.SameBits x.after) (t : Through x.after rest n') :
      Through n (x :: rest) n'

namespace Through

variable {n n' n'' : Noise} {xs ys : List Crossing}

theorem of_sameBits (h : n.SameBits n') (t : Through n' xs n'') : Through n xs n'' := by
  cases t with
  | still h' => exact .still (h.trans h')
  | cross before crossed t => exact .cross (h.trans before) crossed t

theorem trans (t : Through n xs n') (t' : Through n' ys n'') : Through n (xs ++ ys) n'' := by
  induction t with
  | still h => exact t'.of_sameBits h
  | cross before crossed _ ih => exact .cross before crossed (ih t')

/-- Every second crossing is a shift, and the toggle says whether the first one is. -/
theorem shifts_getElem (t : Through n xs n') (k : Nat) (hk : k < xs.length) :
    xs[k].shifts = (n.toggle == decide (k % 2 = 1)) := by
  induction t generalizing k with
  | still => exact absurd hk (Nat.not_lt_zero k)
  | @cross n n' x rest before crossed t ih =>
      cases k with
      | zero =>
          show (!x.before.toggle) = _
          rw [before.toggle]
          cases n.toggle <;> rfl
      | succ k =>
          have hafter : x.after.toggle = !n.toggle := by rw [crossed.of_cross.1, before.toggle]
          refine (ih k (Nat.lt_of_succ_lt_succ hk)).trans ?_
          rw [hafter, decide_odd_succ]
          cases n.toggle <;> cases decide (k % 2 = 1) <;> rfl

theorem crossed (t : Through n xs n') {x : Crossing} (hx : x ∈ xs) :
    x.before.cross.SameBits x.after := by
  induction t with
  | still => cases hx
  | cross _ crossed _ ih =>
      rcases List.mem_cons.mp hx with rfl | hx
      · exact crossed
      · exact ih hx

/-- The shifts among some crossings put out what the register alone does, and what the last of them
leaves stays. -/
theorem outputs_eq (t : Through n xs n') :
    let shifts := xs.filter Crossing.shifts
    shifts.map Crossing.output = n.register.outputs (shifts.map Crossing.white) ∧
      n'.phase = (shifts.map Crossing.output).getLastD n.phase ∧
      n'.register = (shifts.map (·.after.register)).getLastD n.register := by
  induction t with
  | still h => exact ⟨rfl, h.phase, h.register⟩
  | @cross n n' x rest before crossed t ih =>
      obtain ⟨houtputs, hphase, hregister⟩ := ih
      obtain ⟨-, hset, hclear⟩ := crossed.of_cross
      intro shifts
      cases htoggle : x.before.toggle with
      | true =>
          obtain ⟨hp, hr⟩ := hset htoggle
          have hshifts : shifts = rest.filter Crossing.shifts :=
            List.filter_cons_of_neg (by simp [Crossing.shifts, htoggle])
          rw [hp, before.phase] at hphase
          rw [hr, before.register] at houtputs hregister
          rw [hshifts]
          exact ⟨houtputs, hphase, hregister⟩
      | false =>
          obtain ⟨hp, hr⟩ := hclear htoggle
          have hshifts : shifts = x :: rest.filter Crossing.shifts :=
            List.filter_cons_of_pos (by simp [Crossing.shifts, htoggle])
          have hfirst : x.output = n.register.getLsbD 0 := by
            rw [Crossing.output, hp, before.register]
          rw [hr, before.register] at houtputs
          rw [hshifts, List.map_cons, List.map_cons, List.map_cons, List.getLastD_cons,
            List.getLastD_cons, ShiftRegister.outputs]
          exact ⟨congrArg₂ List.cons hfirst houtputs, hphase, hregister⟩

end Through

end Noise

/-! ### Crossings along a history -/

namespace Chip

/-- The master-clock cycles an operation takes. -/
def Operation.cycles : Operation → Nat
  | .advance cycles => cycles
  | .render cycles count => count * cycles
  | .write _ | .reset | .mute _ _ => 0

/-- The crossing in the next cycle, if there is one: the cycle brings a clock, and the clock runs out
the count of the noise. -/
def crossing (c : Chip) : List Crossing :=
  if c.divider ≤ 1 ∧ c.noise.counter ≤ 1 then [⟨c.noise, c.cycle.noise⟩] else []

/-- The crossings in a number of cycles, first to last. -/
def crossingsIn (c : Chip) : Nat → List Crossing
  | 0 => []
  | n + 1 => c.crossing ++ c.cycle.crossingsIn n

/-- The crossings along a history, first to last. -/
def crossings (c : Chip) : List Operation → List Crossing
  | [] => []
  | op :: rest => c.crossingsIn op.cycles ++ (c.apply op).crossings rest

/-- The shifts along a history, first to last. -/
def shifts (c : Chip) (history : List Operation) : List Crossing :=
  (c.crossings history).filter Crossing.shifts

theorem through_cycle (c : Chip) : c.noise.Through c.crossing c.cycle.noise := by
  unfold crossing
  by_cases hclock : c.divider ≤ 1
  · rw [noise_cycle_of_le hclock, Noise.clock]
    by_cases hcount : c.noise.counter ≤ 1
    · rw [if_pos ⟨hclock, hcount⟩, if_pos hcount]
      exact .cross (.refl _) ⟨rfl, rfl, rfl⟩ (.still (.refl _))
    · rw [if_neg fun h => hcount h.2, if_neg hcount]
      exact .still ⟨rfl, rfl, rfl⟩
  · rw [if_neg fun h => hclock h.1, noise_cycle_of_not_le hclock]
    exact .still (.refl _)

theorem through_advance (c : Chip) (n : Nat) :
    c.noise.Through (c.crossingsIn n) (c.advance n).noise := by
  induction n generalizing c with
  | zero => exact .still (.refl _)
  | succ n ih => exact c.through_cycle.trans (ih c.cycle)

theorem sameBits_write (c : Chip) (byte : UInt8) : c.noise.SameBits (c.write byte).noise := by
  rcases c.noise_write_cases byte [] with ⟨register, width, data, -, hnoise⟩ | ⟨-, hnoise⟩
  · rw [hnoise]
    exact ⟨Noise.toggle_write _ _ _, Noise.phase_write _ _ _, Noise.register_write _ _ _⟩
  · rw [hnoise]
    exact .refl _

theorem noise_setMute (c : Chip) (index : Nat) (muted : Bool) :
    (c.setMute index muted).noise = c.noise := by
  unfold setMute
  split <;> rfl

/-- Short of a reset, an operation touches the bits of the noise by its crossings only. -/
theorem through_apply (c : Chip) {op : Operation} (h : op ≠ .reset) :
    c.noise.Through (c.crossingsIn op.cycles) (c.apply op).noise := by
  cases op with
  | reset => exact absurd rfl h
  | write byte => exact .still (c.sameBits_write byte)
  | advance cycles => exact c.through_advance cycles
  | render cycles count =>
      rw [apply, fst_renderSamples]
      exact c.through_advance (count * cycles)
  | mute index muted =>
      rw [apply, noise_setMute]
      exact .still (.refl _)

theorem through_run (c : Chip) {history : List Operation} (h : .reset ∉ history) :
    c.noise.Through (c.crossings history) (c.run history).noise := by
  induction history generalizing c with
  | nil => exact .still (.refl _)
  | cons op rest ih =>
      have hop : op ≠ .reset := fun heq => h (heq ▸ List.mem_cons_self)
      have hrest : .reset ∉ rest := fun hmem => h (List.mem_cons_of_mem _ hmem)
      exact (c.through_apply hop).trans (ih (c.apply op) hrest)

/-- **The noise recurrence.**  Take any chip and any history without a reset.  Every second crossing
is a shift, beginning with the first unless the toggle is set; the register moves at the shifts and
at no other crossing.  The outputs at the first sixteen shifts are the bits of the register at the
start.  Each later one is the output sixteen shifts before it, flipped by the one thirteen before it
if the feedback was that of white noise at the earlier of the two.  At the end of the history,
wherever that is, the output and the register are what the last shift has left, or as at the start
if there was none. -/
theorem noise_recurrence (c : Chip) {history : List Operation} (h : .reset ∉ history) :
    let crossings := c.crossings history
    let shifts := c.shifts history
    (∀ k (hk : k < crossings.length),
      crossings[k].shifts = (c.noise.toggle == decide (k % 2 = 1))) ∧
    (∀ x ∈ crossings, x.after.register =
      if x.shifts then ShiftRegister.shift x.white x.before.register else x.before.register) ∧
    (∀ n (hn : n < shifts.length), n < 16 → shifts[n].output = c.noise.register.getLsbD n) ∧
    (∀ n (hn : n + 16 < shifts.length),
      shifts[n + 16].output = (shifts[n].output ^^ (shifts[n].white && shifts[n + 3].output))) ∧
    (c.run history).noise.phase = (shifts.map Crossing.output).getLastD c.noise.phase ∧
    (c.run history).noise.register = (shifts.map (·.after.register)).getLastD c.noise.register := by
  intro crossings shifts
  have t : c.noise.Through crossings (c.run history).noise := c.through_run h
  obtain ⟨houtputs, hphase, hregister⟩ := t.outputs_eq
  have hlength : (c.noise.register.outputs (shifts.map Crossing.white)).length = shifts.length := by
    rw [ShiftRegister.length_outputs, List.length_map]
  have houtput : ∀ n (hn : n < shifts.length),
      shifts[n].output = (c.noise.register.outputs (shifts.map Crossing.white))[n] := by
    intro n hn
    have hmap : shifts.map Crossing.output =
        c.noise.register.outputs (shifts.map Crossing.white) := houtputs
    simp only [← hmap, List.getElem_map]
  refine ⟨t.shifts_getElem, fun x hx => ?_, fun n hn hbit => ?_, fun n hn => ?_, hphase, hregister⟩
  · obtain ⟨-, hset, hclear⟩ := (t.crossed hx).of_cross
    rw [Crossing.shifts]
    cases htoggle : x.before.toggle with
    | true => exact (hset htoggle).2
    | false => exact (hclear htoggle).2
  · rw [houtput]
    exact ShiftRegister.getElem_outputs_of_lt _ _ _ hbit
  · have hwhite : n < (shifts.map Crossing.white).length := by
      rw [List.length_map]
      omega
    rw [houtput, houtput, houtput, ShiftRegister.getElem_outputs_add _ _ _ hwhite,
      List.getElem_map]

/-- A noise whose first crossing is no shift, at the rate of tone 2: the feedback changes from white
to periodic after two shifts and back later, tone 2 is tuned, and the noise muted.  The nineteenth
output is the third, as it is: at the third shift the feedback is periodic, so the sixth output does
not flip it. -/
theorem noise_recurrence_switched_feedback :
    let c : Chip := { powerOn with
      divider := 3
      noise := { Noise.powerOn with register := 0x8A35#16, counter := 2, toggle := true } }
    let history : List Operation := [.write 0xE7, .advance 80, .mute 3 true, .write 0xE3,
      .write 0xC1, .advance 300, .write 0xE7, .render 20 12]
    let shifts := c.shifts history
    .reset ∉ history ∧
    shifts.map Crossing.output = [true, false, true, false, true, true, false, false, false, true,
      false, true, false, false, false, true, true, true, true] ∧
    (shifts.map Crossing.white).take 4 = [true, true, false, false] ∧
    (∀ n (hn : n < shifts.length), n < 16 → shifts[n].output = (0x8A35#16).getLsbD n) ∧
    (∀ n (hn : n + 16 < shifts.length),
      shifts[n + 16].output = (shifts[n].output ^^ (shifts[n].white && shifts[n + 3].output))) ∧
    (c.run history).noise.phase = (shifts.map Crossing.output).getLastD false := by
  intro c history shifts
  have h : .reset ∉ history := by decide
  obtain ⟨-, -, hbits, hrecurrence, hphase, -⟩ := noise_recurrence c h
  exact ⟨h, by decide +kernel, by decide +kernel, hbits, hrecurrence, hphase⟩

end Chip

end Chiptune
