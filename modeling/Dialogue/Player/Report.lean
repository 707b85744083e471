import Dialogue.Decimal.Places
import Dialogue.Player.Run
import Dialogue.Script.Encode

/-! Reports: what a run has come to. -/

namespace Dialogue

structure Report where
  /-- The name of the topic with its file. -/
  topic : String
  frames : Nat
  elapsed : Seconds
  /-- Whether the topic has been played to its end in time. -/
  completed : Bool
  events : List Logged
  values : Table Int32
  info : List String

/-- A run that has stopped has come to the end of its topic if it has logged so. -/
def Run.isCompleted (r : Run) : Bool := r.log.any (·.event = .ended) && !r.session.running

def Run.report (r : Run) (l : Limits) (topic : String) : Report where
  topic
  frames := r.frame
  elapsed := Float32.ofNat r.frame * l.step
  completed := r.isCompleted
  events := r.log.toList
  values := r.session.world.values
  info := r.info.toList

namespace Report

def entryJson (e : Logged) : Json :=
  .object [("sequence", .int e.sequence), ("frame", .int e.frame), ("label", .string e.event.text)]

/-- The log of a run. Texts for the host are left out if there are none. -/
def json (r : Report) : Json :=
  .object ([("topic", .string r.topic), ("frames", .int r.frames), ("elapsed_seconds", .real r.elapsed),
    ("completed", .bool r.completed), ("events", .array (r.events.map entryJson)),
    ("variables", .ofTable .ofInt32 r.values)] ++
    (if r.info.isEmpty then [] else [("info", .array (r.info.map .string))]))

/-- The number of a frame, in a column of five. -/
def column (n : Nat) : String :=
  let digits := toString n
  String.ofList (List.replicate (5 - digits.length) ' ') ++ digits

def eventLine (e : Logged) : String := "[" ++ column e.frame ++ "] " ++ e.event.text

/-- A sentence about the run, and why it has stopped unless it has been completed. -/
def summary (r : Report) (running : Bool) : String :=
  let status := if r.completed then "" else if running then " (time limit reached)" else " (stopped early)"
  "Played " ++ r.topic ++ " in " ++ toString r.frames ++ " frames (" ++ Decimal.fixed 2 r.elapsed.toModel.unpack ++
    "s), " ++ toString r.events.length ++ " events" ++ status

end Report
end Dialogue
