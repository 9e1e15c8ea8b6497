import Chiptune.Error
import Chiptune.Json.Basic
import Chiptune.Vgm.Header

/-!
# Audio — Settings

What the exporter does to rendered samples before it writes them: scale the peak, fade out the end,
double every sample into two channels.  `validate` refuses what no exporter can honour.  Settings
are written as a JSON object and read from one, or from a list of its fields in order; fields that
are missing have their defaults (`ofJson?`).
-/

namespace Chiptune

/-- How samples are exported. -/
structure AudioSettings where
  /-- The rate written into the output, in samples per second. -/
  sampleRate : Nat := Chiptune.sampleRate
  channels : Nat := 1
  /-- Scale the samples so that the peak is just below full scale. -/
  normalize : Bool := false
  /-- Seconds to fade out over; zero for none. -/
  fadeOut : Binary32 := .zero false
  deriving DecidableEq

namespace AudioSettings

/-- The samples as they are, in one channel. -/
def standard : AudioSettings := {}

/-- The samples as they are, in two channels. -/
def stereo : AudioSettings := { channels := 2 }

/-- Refuse settings no exporter can honour. -/
def validate (c : AudioSettings) : Except Error Unit :=
  if c.channels < 1 ∨ 2 < c.channels then .error (.settings (.channels c.channels))
  else if c.sampleRate = 0 then .error (.settings .zeroSampleRate)
  else if c.fadeOut.isFinite = false ∨ c.fadeOut.isNegative = true then
    .error (.settings (.fadeOut c.fadeOut))
  else .ok ()

/-! ### As JSON -/

/-- The settings as a JSON object. -/
def toJson (c : AudioSettings) : Json :=
  .obj
    [("sample_rate", .nat c.sampleRate),
      ("channels", .nat c.channels),
      ("normalize", .bool c.normalize),
      ("fade_out_duration", .single c.fadeOut)]

/-- An integer below a bound. -/
def naturalBelow? (bound : Nat) : Json → Option Nat
  | .int (.ofNat n) => if n < bound then some n else none
  | _ => none

/-- A truth value. -/
def truth? : Json → Option Bool
  | .bool b => some b
  | _ => none

/-- A number: an integer is rounded at once, a decimal by way of the sixty-four-bit format. -/
def number? : Json → Option Binary32
  | .int i => some (.ofInt i)
  | .decimal d => some d.toBinary32ViaDouble
  | .single x => some x
  | _ => none

/-- A field that has its default when it is missing. -/
def fieldOr {α : Type} (default : α) (read? : Json → Option α) : Option Json → Option α
  | none => some default
  | some value => read? value

/-- Settings from values for their fields. -/
def ofFields? (sampleRate channels normalize fadeOut : Option Json) : Option AudioSettings := do
  let sampleRate ← fieldOr standard.sampleRate (naturalBelow? (Nat.pow 2 32)) sampleRate
  let channels ← fieldOr standard.channels (naturalBelow? (Nat.pow 2 16)) channels
  let normalize ← fieldOr standard.normalize truth? normalize
  let fadeOut ← fieldOr standard.fadeOut number? fadeOut
  return { sampleRate, channels, normalize, fadeOut }

/-- Settings from JSON: an object, whose other members are ignored, or a list of at most all
fields in order. -/
def ofJson? (j : Json) : Option AudioSettings :=
  match j with
  | .obj _ =>
    ofFields? (j.member? "sample_rate") (j.member? "channels") (j.member? "normalize")
      (j.member? "fade_out_duration")
  | .arr items =>
    if 4 < items.length then none else ofFields? items[0]? items[1]? items[2]? items[3]?
  | _ => none

end AudioSettings

end Chiptune
