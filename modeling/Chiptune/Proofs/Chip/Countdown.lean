/-!
# Chip — Countdown

Every voice of the chip has a count that goes down by one with each clock.  The clock that finds it
at 1, or at 0, runs it out, and it starts again from a period.  How often it runs out in a number of
clocks (`runOuts`) and where it then stands (`countLeft`) can be worked out at once; the laws below
are those of counting clock by clock, seen from the first clock.
-/

namespace Chiptune

/-- How often a count runs out in a number of clocks: once when it is used up, and then once every
period, where a period of 0 is as short as one of 1. -/
def runOuts (count period clocks : Nat) : Nat :=
  if clocks < max count 1 then 0 else 1 + (clocks - max count 1) / max period 1

/-- What is left of a count after a number of clocks. -/
def countLeft (count period clocks : Nat) : Nat :=
  if clocks < max count 1 then count - clocks
  else if period = 0 then 0
  else period - (clocks - max count 1) % period

/-- One time more turns an odd number of times into an even one and back. -/
theorem decide_odd_succ (times : Nat) :
    decide ((times + 1) % 2 = 1) = !decide (times % 2 = 1) := by
  rw [← decide_not]
  exact decide_eq_decide.mpr (by omega)

theorem runOuts_zero (count period : Nat) : runOuts count period 0 = 0 :=
  if_pos (by omega)

theorem countLeft_zero (count period : Nat) : countLeft count period 0 = count :=
  if_pos (by omega)

section

variable {count : Nat} (period clocks : Nat)

/-- The clock that runs the count out begins the next period. -/
theorem runOuts_succ_of_le (h : count ≤ 1) :
    runOuts count period (clocks + 1) = runOuts period period clocks + 1 := by
  have hrun : max count 1 = 1 := by omega
  rw [runOuts, runOuts, hrun, if_neg (by omega), Nat.add_sub_cancel, Nat.add_comm 1]
  refine congrArg (· + 1) ?_
  split
  · rename_i hlt
    exact Nat.div_eq_of_lt hlt
  · rw [Nat.div_eq_sub_div (by omega) (by omega), Nat.add_comm]

theorem runOuts_succ_of_not_le (h : ¬ count ≤ 1) :
    runOuts count period (clocks + 1) = runOuts (count - 1) period clocks := by
  have hnow : max count 1 = count - 1 + 1 := by omega
  have hnext : max (count - 1) 1 = count - 1 := by omega
  rw [runOuts, runOuts, hnow, hnext, Nat.add_sub_add_right]
  simp only [Nat.add_lt_add_iff_right]

theorem countLeft_succ_of_le (h : count ≤ 1) :
    countLeft count period (clocks + 1) = countLeft period period clocks := by
  have hrun : max count 1 = 1 := by omega
  rw [countLeft, countLeft, hrun, if_neg (by omega), Nat.add_sub_cancel]
  by_cases hzero : period = 0
  · rw [hzero]
    simp
  have hperiod : max period 1 = period := by omega
  rw [if_neg hzero, hperiod]
  split
  · rename_i hlt
    rw [Nat.mod_eq_of_lt hlt]
  · rw [Nat.mod_eq_sub_mod (by omega)]

theorem countLeft_succ_of_not_le (h : ¬ count ≤ 1) :
    countLeft count period (clocks + 1) = countLeft (count - 1) period clocks := by
  have hnow : max count 1 = count - 1 + 1 := by omega
  have hnext : max (count - 1) 1 = count - 1 := by omega
  rw [countLeft, countLeft, hnow, hnext, Nat.add_sub_add_right, Nat.sub_sub, Nat.add_comm 1]
  simp only [Nat.add_lt_add_iff_right]

end

end Chiptune
