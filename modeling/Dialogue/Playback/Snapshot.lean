import Dialogue.Playback.Operation

/-! The state of playback as JSON. -/

namespace Dialogue
open Json

def TopicId.json (t : TopicId) : Json := .int t.index

def ListRef.json : ListRef → Json
  | .script l => .object [("Script", l.json)]
  | .preview => .string "Preview"

def ActionRef.json (a : ActionRef) : Json := .object [("list", a.list.json), ("index", .int a.index)]

def LaneId.json : LaneId → Json
  | .main => .string "Main"
  | .side n => .object [("Side", .int n)]

def Cursor.json (c : Cursor) : Json :=
  .object [("parent_topic", ofOption TopicId.json c.topic), ("parent_action", ofOption ActionRef.json c.parent),
    ("list", c.list.json), ("list_len", .int c.length), ("loop_condition", ofOption ActionRef.json c.guard),
    ("looping", .bool c.looping), ("next_index", .int c.next), ("next_action", ofOption ActionRef.json c.action?)]

def Lane.json (l : Lane) : Json :=
  .object [("entries", .array (l.cursors.map Cursor.json)), ("action_waiting", .bool l.waiting),
    ("action_time", .real l.time)]

def Offer.json (o : Offer) : Json := .object [("text", .string o.text), ("option", .int o.option)]

/-- What the player is asked; empty if nothing. -/
def Choice.json (c : Option Choice) : Json :=
  .object [("stack", ofOption (·.lane.json) c), ("stack_depth", .int (c.elim 0 (·.depth))),
    ("action", ofOption (·.action.json) c), ("entries", .array ((c.elim [] (·.offers)).map Offer.json))]

def LastPlayed.json (l : LastPlayed) : Json :=
  .object [("topic", ofOption TopicId.json l.topic), ("action", l.action.json)]

def Actor.json (a : Actor) : Json := .object (a.toProfile.members ++ [("waiting", .bool a.waiting)])

def Trigger.json (t : Trigger) : Json := .object [("fired", .bool t.fired), ("has_fired", .bool t.hasFired)]

def World.json (w : World) : Json :=
  .object [("actors", .array (w.actors.map Actor.json)), ("variables", ofTable ofInt32 w.values),
    ("game_commands", ofTable .bool w.gameCommands),
    ("triggers", .object [("targets", ofTable Trigger.json w.triggers)])]

def Speech.json (s : Speech) : Json :=
  .object [("speech_length", .real s.length), ("elapsed_time", .real s.elapsed), ("text", ofOptionalString s.text)]

def Camera.json (c : Camera) : Json :=
  .object [("shot", ofOptionalString c.shot), ("duration", .real c.duration), ("elapsed", .real c.elapsed)]

end Dialogue
