import Dialogue.Json.Record
import Dialogue.Json.Value

/-! Options of playback. -/

namespace Dialogue

structure Options where
  /-- Whether commands, triggers and actors coming and going are passed at once, or held until the host goes on. -/
  autoAdvance : Bool := true
  /-- Seconds of a frame while speech is skipped. -/
  fastForwardStep : Seconds := 0.1
  /-- How many frames may be skipped at once. -/
  fastForwardLimit : Nat := 10000
  deriving DecidableEq

inductive OptionsError where
  | unreadable (error : Json.ReadError)
  /-- Frames must take some time, and a finite one. -/
  | invalidStep (step : Seconds)

namespace Options
open Json Record

def decoder : Decoder Options :=
  (((defaulting "auto_advance_commands" .bool true).and ((defaulting "fast_forward_step" .seconds 0.1).and
    (defaulting "fast_forward_limit" .count 10000))).map fun (autoAdvance, fastForwardStep, fastForwardLimit) =>
      { autoAdvance, fastForwardStep, fastForwardLimit : Options }).decode "struct PlaybackOptions"

def validate (o : Options) : Except OptionsError Options :=
  if o.fastForwardStep ≤ 0 || !o.fastForwardStep.isFinite then .error (.invalidStep o.fastForwardStep) else .ok o

/-- Reads options from their text; what is left out has its usual value. -/
def ofText (text : String) : Except OptionsError Options :=
  match read decoder text with
  | .error e => .error (.unreadable e)
  | .ok o => o.validate

def json (o : Options) : Json :=
  .object [("auto_advance_commands", .bool o.autoAdvance), ("fast_forward_step", .real o.fastForwardStep),
    ("fast_forward_limit", .int o.fastForwardLimit)]

end Options

/-- Times in messages are written without an exponent, and whole ones without a point. -/
def Seconds.plainLayout : Decimal.Layout where
  positional := none
  pointZero := false
  tie := .upward

def Seconds.text (x : Seconds) : String := plainLayout.single x

def OptionsError.message : OptionsError → String
  | .unreadable e => "parsing playback options: " ++ e.message
  | .invalidStep step => "fast_forward_step must be positive (got " ++ step.text ++ ")"

end Dialogue
