import Dialogue.Json.Variant
import Dialogue.Script.Document

/-! Reading scripts from their texts. A topic's actions and their common fields are read as they come; the other
    fields of an action, and the lists within it, are checked first and read once the action has been read to its
    end. -/

namespace Dialogue
open Json

def Junction.decoder : Decoder Junction := .oneOf [("none", .none), ("any", .any), ("all", .all)]

def Comparison.decoder : Decoder Comparison :=
  .oneOf [("eq", .eq), ("ne", .ne), ("lt", .lt), ("le", .le), ("gt", .gt), ("ge", .ge)]

def TriggerMode.decoder : Decoder TriggerMode :=
  .oneOf [("fired", .fired), ("not_fired", .notFired), ("ever_fired", .everFired), ("never_fired", .neverFired)]

def SetOperator.decoder : Decoder SetOperator :=
  .oneOf [("set", .set), ("increment", .increment), ("decrement", .decrement), ("random", .random)]

def TriggerAction.decoder : Decoder TriggerAction :=
  .oneOf [("fire", .fire), ("reset", .reset), ("pulse", .pulse), ("full_reset", .fullReset)]

/-! ### Fields that several records have -/

open Record

def textField (name : String) : Record (Option String) String := required name .string

def flagField (name : String) (absent : Bool) : Record (Option Bool) Bool := defaulting name .bool absent

def secondsField (name : String) : Record (Option Seconds) Seconds := defaulting name .seconds 0

def operandFields : Record (Option Int32 × Option (Option String)) Operand :=
  ((defaulting "value" .int32 0).and (optional "value_variable" .string)).map fun (value, variableName) =>
    { value, variableName }

/-! ### Conditions -/

namespace Condition

def variants (inner : Decoder Condition) : List (Variant Condition) := [
  .record "logic" "struct variant ConditionNode::Logic" <|
    ((required "operator" Junction.decoder).and (defaulting "conditions" (.list inner) [])).map
      fun (junction, conditions) => .logic junction conditions,
  .record "has_actor" "struct variant ConditionNode::HasActor" <|
    ((textField "actor").and (flagField "negate" false)).map fun (actor, negate) => .hasActor actor negate,
  .record "actor_in_conversation" "struct variant ConditionNode::ActorInConversation" <|
    ((textField "actor").and (flagField "negate" false)).map fun (actor, negate) => .actorInConversation actor negate,
  .record "variable" "struct variant ConditionNode::Variable" <|
    ((textField "variable").and ((required "operator" Comparison.decoder).and operandFields)).map
      fun (name, comparison, operand) => .compareVariable name comparison operand,
  .record "actor_parameter" "struct variant ConditionNode::ActorParameter" <|
    ((textField "actor").and ((textField "parameter").and
      ((required "operator" Comparison.decoder).and operandFields))).map
      fun (actor, name, comparison, operand) => .compareParameter actor name comparison operand,
  .record "actor_command" "struct variant ConditionNode::ActorCommand" <|
    ((textField "actor").and ((textField "command").and (flagField "negate" false))).map
      fun (actor, command, negate) => .actorCommand actor command negate,
  .record "game_command" "struct variant ConditionNode::GameCommand" <|
    ((textField "command").and (flagField "negate" false)).map fun (command, negate) => .gameCommand command negate,
  .record "trigger" "struct variant ConditionNode::Trigger" <|
    ((textField "name").and (required "mode" TriggerMode.decoder)).map fun (name, mode) => .trigger name mode]

/-- Reads a condition with at most `depth` conditions within each other. -/
def decoderWithin : Nat → Decoder Condition
  | 0 => fun _ _ => .error (.fault .malformed)
  | depth + 1 => Variant.decode "internally tagged enum ConditionNode" (variants (decoderWithin depth))

/-- Every condition within another one takes a level, so that no text nests more of them. -/
def decoder : Decoder Condition := decoderWithin (nestingLimit + 1)

end Condition

/-! ### Actions -/

def Word.decoder : Decoder Word :=
  (((defaulting "id" .string "").and ((secondsField "pause").and (secondsField "duration"))).map
    fun (id, pause, duration) => { id, pause, duration : Word }).decode "struct SpeechStrip"

def changeFields : Record (Option SetOperator × Option Int32 × Option (Option String)) Change :=
  ((defaulting "operator" SetOperator.decoder .set).and operandFields).map fun (operator, operand) =>
    { operator, operand }

def conditionField : Record (Option (Option Condition)) (Option Condition) := optional "condition" Condition.decoder

/-- A list within an action. -/
def blockField (name : String) (block : Decoder Block) : Record (Option Block) Block := defaulting name block ⟨[]⟩

def Case.decoder (block : Decoder Block) : Decoder (Case Block) :=
  ((conditionField.and (blockField "actions" block)).map fun (condition, actions) =>
    { condition, actions : Case Block }).decode "struct IfCase"

def Answer.decoder (block : Decoder Block) : Decoder (Answer Block) :=
  (((textField "text").and (conditionField.and (blockField "actions" block))).map fun (text, condition, actions) =>
    { text, condition, actions : Answer Block }).decode "struct ChoiceOption"

/-- The kinds of actions in their order, with the lists in them read by `block`. -/
def Kind.variants (block : Decoder Block) : List (Variant (Kind Block)) := [
  .keyed "camera_shot" <|
    ((textField "name").and (secondsField "duration")).map fun (name, duration) => .cue (.cameraShot name duration),
  .keyed "actor_speak" <|
    ((textField "actor").and ((optional "text" .string).and ((secondsField "min_speech_time").and
      (defaulting "words" (.list Word.decoder) [])))).map
      fun (actor, text, minTime, words) => .cue (.speak actor text minTime words),
  .keyed "snippet" <|
    ((optional "file" .string).and ((textField "topic").and (flagField "create_side_lane" false))).map
      fun (file, topic, sideLane) => .cue (.snippet file topic sideLane),
  .plain "stop_conversation" (.cue .stopConversation),
  .plain "stop_topic" (.cue .stopTopic),
  .keyed "if_else" <|
    ((defaulting "cases" (.list (Case.decoder block)) []).and (blockField "else_actions" block)).map
      fun (cases, otherwise) => .ifElse cases otherwise,
  .keyed "player_choice" <|
    ((defaulting "options" (.list (Answer.decoder block)) []).and ((blockField "actions" block).and
      (optional "variable" .string))).map
      fun (answers, meanwhile, variableName) => .choice answers meanwhile variableName,
  .keyed "set_variable" <|
    ((textField "name").and changeFields).map fun (name, change) => .cue (.setVariable name change),
  .keyed "set_actor_parameter" <|
    ((textField "actor").and ((textField "name").and changeFields)).map
      fun (actor, name, change) => .cue (.setParameter actor name change),
  .keyed "actor_command" <|
    ((textField "actor").and (textField "command")).map fun (actor, command) => .cue (.actorCommand actor command),
  .keyed "game_command" <|
    (textField "command").map fun command => .cue (.gameCommand command),
  .keyed "wait" <|
    (conditionField.and (blockField "actions" block)).map fun (condition, body) => .wait condition body,
  .keyed "trigger" <|
    ((textField "name").and (defaulting "action" TriggerAction.decoder .fire)).map
      fun (name, action) => .cue (.trigger name action),
  .keyed "actor_add" <|
    ((textField "id").and (optional "alias" .string)).map fun (id, alias?) => .cue (.addActor id alias?),
  .keyed "actor_remove" <|
    (textField "actor").map fun actor => .cue (.removeActor actor),
  .keyed "comment" <|
    (defaulting "text" .string "").map fun text => .cue (.comment text)]

namespace Action

/-- The fields that every action has. -/
def common :
    Record (Option Seconds × Option Bool × Option (Option String) × Option Bool) (Kind Block → Action Block) :=
  ((secondsField "delay").and ((flagField "wait_for_actor" true).and ((optional "wait_for_actor_id" .string).and
    (flagField "wait_speak_only" false)))).map
    fun (delay, waits, waitTarget, speechOnly) kind => { delay, waits, waitTarget, speechOnly, kind }

/-- Reads an action whose lists are read by `block`. -/
def decoderWith (block : Decoder Block) : Decoder (Action Block)
  | m, .object members tail => do
    let m ← m.enter
    let (x, others) ← common.fillByName (fun d => faulty (d.check m.levels)) m members common.blank
    faulty (Draft.close tail)
    let action ← common.completeNamed x
    let kind ← Variant.ofObject (Kind.variants block) { m with checked := true }
      (others.map fun (name, value) => (.ok name, value)) none
    return action kind
  | _, d => wrongType "struct ActionNode" d

end Action

namespace Block

/-- Reads a block with at most `depth` blocks within each other. -/
def decoderWithin : Nat → Decoder Block
  | 0 => fun _ _ => .error (.fault .malformed)
  | depth + 1 => fun m d => Block.mk <$> Decoder.list (Action.decoderWith (decoderWithin depth)) m d

/-- Every block within another one takes a level, so that no text nests more of them. -/
def decoder : Decoder Block := decoderWithin (nestingLimit + 1)

end Block

def Action.decoder : Decoder (Action Block) := Action.decoderWith Block.decoder

/-! ### Documents -/

def Profile.decoder : Decoder Profile :=
  (((textField "id").and ((optional "alias" .string).and ((defaulting "parameters" (.table .int32) .empty).and
    (defaulting "commands" (.table .bool) .empty)))).map fun (id, alias?, parameters, commands) =>
    { id, alias?, parameters, commands : Profile }).decode "struct ActorDef"

namespace Document

def Topic.decoder : Decoder Topic :=
  (((textField "id").and (blockField "actions" Block.decoder)).map fun (id, block) =>
    { id, block : Topic }).decode "struct TopicDocument"

def File.decoder : Decoder File :=
  (((textField "id").and (defaulting "topics" (.list Topic.decoder) [])).map fun (id, topics) =>
    { id, topics : File }).decode "struct FileDocument"

def decoder : Decoder Document :=
  (((defaulting "actors" (.list Profile.decoder) []).and ((defaulting "variables" (.table .int32) .empty).and
    ((defaulting "game_commands" (.table .bool) .empty).and (defaulting "files" (.list File.decoder) [])))).map
    fun (profiles, values, gameCommands, files) =>
      { profiles, values, gameCommands, files : Document }).decode "struct ConversationDocument"

/-- Reads a document from its text. -/
def ofText (text : String) : Except ReadError Document := read decoder text

end Document
end Dialogue
