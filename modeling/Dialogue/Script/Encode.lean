import Dialogue.Json.Value
import Dialogue.Script.Document

/-! Scripts as JSON. Every field is written, also one that has the value it would have if it were absent. -/

namespace Dialogue

namespace Json

def ofInt32 (n : Int32) : Json := .int n.toInt

def ofOptionalString (s : Option String) : Json := ofOption .string s

def ofTable {α : Type} (f : α → Json) (t : Table α) : Json :=
  .object (t.entries.map fun (name, value) => (name, f value))

end Json

open Json

/-! ### Conditions -/

def Junction.json : Junction → Json
  | .none => .string "none"
  | .any => .string "any"
  | .all => .string "all"

def Comparison.json : Comparison → Json
  | .eq => .string "eq"
  | .ne => .string "ne"
  | .lt => .string "lt"
  | .le => .string "le"
  | .gt => .string "gt"
  | .ge => .string "ge"

def TriggerMode.json : TriggerMode → Json
  | .fired => .string "fired"
  | .notFired => .string "not_fired"
  | .everFired => .string "ever_fired"
  | .neverFired => .string "never_fired"

/-- The members of an object that tell an operand. -/
def Operand.members (o : Operand) : List (String × Json) :=
  [("value", ofInt32 o.value), ("value_variable", ofOptionalString o.variableName)]

namespace Condition

mutual

def json : Condition → Json
  | .logic junction conditions =>
    .object [("type", .string "logic"), ("operator", junction.json), ("conditions", .array (jsons conditions))]
  | .hasActor actor negate =>
    .object [("type", .string "has_actor"), ("actor", .string actor), ("negate", .bool negate)]
  | .actorInConversation actor negate =>
    .object [("type", .string "actor_in_conversation"), ("actor", .string actor), ("negate", .bool negate)]
  | .compareVariable name comparison operand =>
    .object ([("type", .string "variable"), ("variable", .string name), ("operator", comparison.json)] ++
      operand.members)
  | .compareParameter actor name comparison operand =>
    .object ([("type", .string "actor_parameter"), ("actor", .string actor), ("parameter", .string name),
      ("operator", comparison.json)] ++ operand.members)
  | .actorCommand actor command negate =>
    .object [("type", .string "actor_command"), ("actor", .string actor), ("command", .string command),
      ("negate", .bool negate)]
  | .gameCommand command negate =>
    .object [("type", .string "game_command"), ("command", .string command), ("negate", .bool negate)]
  | .trigger name mode => .object [("type", .string "trigger"), ("name", .string name), ("mode", mode.json)]

def jsons : List Condition → List Json
  | [] => []
  | c :: rest => json c :: jsons rest

end

theorem jsons_eq : ∀ conditions : List Condition, jsons conditions = conditions.map json
  | [] => rfl
  | _ :: rest => by rw [jsons, jsons_eq rest, List.map_cons]

end Condition

/-! ### Actions -/

def SetOperator.json : SetOperator → Json
  | .set => .string "set"
  | .increment => .string "increment"
  | .decrement => .string "decrement"
  | .random => .string "random"

def TriggerAction.json : TriggerAction → Json
  | .fire => .string "fire"
  | .reset => .string "reset"
  | .pulse => .string "pulse"
  | .fullReset => .string "full_reset"

def Change.members (c : Change) : List (String × Json) := ("operator", c.operator.json) :: c.operand.members

def Word.json (w : Word) : Json :=
  .object [("id", .string w.id), ("pause", .real w.pause), ("duration", .real w.duration)]

/-- The fields of a cue. -/
def Cue.members : Cue → List (String × Json)
  | .cameraShot name duration => [("name", .string name), ("duration", .real duration)]
  | .speak actor text minTime words =>
    [("actor", .string actor), ("text", ofOptionalString text), ("min_speech_time", .real minTime),
      ("words", .array (words.map Word.json))]
  | .snippet file topic sideLane =>
    [("file", ofOptionalString file), ("topic", .string topic), ("create_side_lane", .bool sideLane)]
  | .stopConversation => []
  | .stopTopic => []
  | .setVariable name change => ("name", .string name) :: change.members
  | .setParameter actor name change => ("actor", .string actor) :: ("name", .string name) :: change.members
  | .actorCommand actor command => [("actor", .string actor), ("command", .string command)]
  | .gameCommand command => [("command", .string command)]
  | .trigger name action => [("name", .string name), ("action", action.json)]
  | .addActor id alias? => [("id", .string id), ("alias", ofOptionalString alias?)]
  | .removeActor actor => [("actor", .string actor)]
  | .comment text => [("text", .string text)]

def Case.json (c : Case Json) : Json :=
  .object [("condition", ofOption Condition.json c.condition), ("actions", c.actions)]

def Answer.json (a : Answer Json) : Json :=
  .object [("text", .string a.text), ("condition", ofOption Condition.json a.condition), ("actions", a.actions)]

/-- The fields of a kind of action whose lists are in JSON already. -/
def Kind.members : Kind Json → List (String × Json)
  | .cue c => c.members
  | .ifElse cases otherwise => [("cases", .array (cases.map Case.json)), ("else_actions", otherwise)]
  | .choice answers meanwhile variableName =>
    [("options", .array (answers.map Answer.json)), ("actions", meanwhile), ("variable", ofOptionalString variableName)]
  | .wait condition body => [("condition", ofOption Condition.json condition), ("actions", body)]

/-- An action whose lists are in JSON already, all its fields in one object. -/
def Action.json (a : Action Json) : Json :=
  .object ([("delay", .real a.delay), ("wait_for_actor", .bool a.waits),
    ("wait_for_actor_id", ofOptionalString a.waitTarget), ("wait_speak_only", .bool a.speechOnly),
    ("type", .string a.label)] ++ a.kind.members)

/-- Lists of actions stand inside each other. -/
def Block.json (b : Block) : Json := b.fold fun actions => .array (actions.map Action.json)

/-! ### Documents -/

/-- The fields of an actor as it is written. -/
def Profile.members (p : Profile) : List (String × Json) :=
  [("id", .string p.id), ("alias", ofOptionalString p.alias?), ("parameters", ofTable ofInt32 p.parameters),
    ("commands", ofTable .bool p.commands)]

def Profile.json (p : Profile) : Json := .object p.members

namespace Document

def Topic.json (t : Topic) : Json := .object [("id", .string t.id), ("actions", t.block.json)]

def File.json (f : File) : Json := .object [("id", .string f.id), ("topics", .array (f.topics.map Topic.json))]

def json (d : Document) : Json :=
  .object [("actors", .array (d.profiles.map Profile.json)), ("variables", ofTable ofInt32 d.values),
    ("game_commands", ofTable .bool d.gameCommands), ("files", .array (d.files.map File.json))]

end Document
end Dialogue
