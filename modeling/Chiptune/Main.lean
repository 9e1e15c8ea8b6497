import Chiptune.Program.Session

/-!
# The command line of vgm2wav

Carries a session out in the real file system: reads the input, writes the file the session wants,
and prints what it leaves behind.
-/

namespace Chiptune

/-- The refusal behind a failed file operation. -/
def osError (e : IO.Error) : OsError :=
  match e with
  | .noFileOrDirectory _ code text => .other text code.toNat
  | .inappropriateType _ code text => .other text code.toNat
  | .permissionDenied _ code text => .other text code.toNat
  | .alreadyExists _ code text => .other text code.toNat
  | .resourceExhausted _ code text => .other text code.toNat
  | .invalidArgument _ code text => .other text code.toNat
  | .otherError code text => .other text code.toNat
  | other => .other (toString other) 0

/-- The result of a file operation, or its refusal. -/
def attempt {α : Type} (operation : IO α) : IO (Except OsError α) := do
  match ← operation.toBaseIO with
  | .ok a => return .ok a
  | .error e => return .error (osError e)

/-- Print what a run leaves behind and return its status. -/
def report (outcome : Outcome) : IO UInt32 := do
  IO.eprint outcome.errors
  IO.print outcome.output
  return UInt32.ofNat outcome.status

/-- Carry a session out. -/
def carryOut (session : Session) : IO UInt32 := do
  match session with
  | .finish outcome => report outcome
  | .write path contents after =>
    let result ← attempt (IO.FS.writeBinFile path contents)
    report (after result)

end Chiptune

/-- Run the program. -/
def main (words : List String) : IO UInt32 := do
  match Chiptune.Options.parse words with
  | .error refusal => Chiptune.report (Chiptune.Session.refused refusal)
  | .ok options =>
    let input ← Chiptune.attempt (IO.FS.readBinFile options.input)
    Chiptune.carryOut (Chiptune.Session.start options input)
