import Chiptune.Vgm.Header

/-!
# VGM — Chip time

A song runs on a whole number of chip cycles per sample, so the chip falls behind its real clock.
The cycles the chip was given add up (`ChipTime.advance`), and the drift is what a real chip would
have run more (`ChipTime.drift`).  Both amounts are read as signed sixty-four-bit words before they
are subtracted.
-/

namespace Chiptune

/-- The value of a sixty-four-bit word read as signed. -/
def signedWord (n : Nat) : Int :=
  (n : Int).bmod (Nat.pow 2 64)

/-- The cycles a chip was given so far. -/
structure ChipTime where
  cycles : Nat := 0
  deriving DecidableEq

namespace ChipTime

/-- Before the first cycle. -/
def zero : ChipTime := {}

/-- More cycles were given. -/
def advance (t : ChipTime) (n : Nat) : ChipTime :=
  ⟨t.cycles + n⟩

/-- The cycles a chip at `clock` Hz runs in a number of samples at `rate` per second. -/
def expectedCycles (clock samples rate : Nat) : Nat :=
  clock * samples / rate

/-- How many cycles the chip is behind one at `clock` Hz. -/
def drift (t : ChipTime) (clock samples rate : Nat) : Int :=
  signedWord (expectedCycles clock samples rate) - signedWord t.cycles

/-- The expected cycles, which a rate of zero does not have. -/
def expectedCycles? (clock samples rate : Nat) : Option Nat :=
  if rate = 0 then none else some (expectedCycles clock samples rate)

/-- The drift, which a rate of zero does not have. -/
def drift? (t : ChipTime) (clock samples rate : Nat) : Option Int :=
  if rate = 0 then none else some (t.drift clock samples rate)

end ChipTime

end Chiptune
