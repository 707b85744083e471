import Dialogue.Seconds
import Dialogue.Script.Condition

/-! Actions: the instructions of a script. A cue is done at once and holds no further actions; a branch, a choice
    and a wait hold lists of actions of their own. What stands for such a list is left open (`L`): the nested list
    itself where a script is written, its number where a script is played. -/

namespace Dialogue

/-- How a number is changed. -/
inductive SetOperator where
  | set
  | increment
  | decrement
  /-- A number between zero and the operand, both included. -/
  | random
  deriving DecidableEq

structure Change where
  operator : SetOperator
  operand : Operand
  deriving DecidableEq

/-- What is done to a trigger. -/
inductive TriggerAction where
  | fire
  | reset
  | pulse
  | fullReset
  deriving DecidableEq

/-- A timed word or pause of a spoken line. -/
structure Word where
  id : String
  pause : Seconds
  duration : Seconds
  deriving DecidableEq

/-- An instruction that holds no further actions. -/
inductive Cue where
  | cameraShot (name : String) (duration : Seconds)
  | speak (actor : String) (text : Option String) (minTime : Seconds) (words : List Word)
  /-- Plays a topic, in a side lane of its own if asked. -/
  | snippet (file : Option String) (topic : String) (sideLane : Bool)
  | stopConversation
  | stopTopic
  | setVariable (name : String) (change : Change)
  | setParameter (actor name : String) (change : Change)
  | actorCommand (actor command : String)
  | gameCommand (command : String)
  | trigger (name : String) (action : TriggerAction)
  | addActor (id : String) (alias? : Option String)
  | removeActor (actor : String)
  | comment (text : String)
  deriving DecidableEq

/-- A case of a branch. -/
structure Case (L : Type) where
  condition : Option Condition
  actions : L

/-- An option of a choice. -/
structure Answer (L : Type) where
  text : String
  condition : Option Condition
  actions : L

inductive Kind (L : Type) where
  | cue (cue : Cue)
  /-- Plays the first case whose condition holds. -/
  | ifElse (cases : List (Case L)) (otherwise : L)
  /-- Offers answers to the player, playing `meanwhile` over and over; the variable receives the number of the
      answer that is selected. -/
  | choice (answers : List (Answer L)) (meanwhile : L) (variableName : Option String)
  /-- Plays the body over and over while the condition holds. -/
  | wait (condition : Option Condition) (body : L)

structure Action (L : Type) where
  /-- Seconds from the moment the gate is found open until the action is done. -/
  delay : Seconds := 0
  /-- Whether the action waits for actors at all. -/
  waits : Bool := true
  /-- The one actor to wait for, by id or alias; all actors, if absent. -/
  waitTarget : Option String := none
  /-- Whether only speech is waited for, and not an actor that is busy. -/
  speechOnly : Bool := false
  kind : Kind L

/-! ### Labels -/

def Cue.label : Cue → String
  | .cameraShot .. => "camera_shot"
  | .speak .. => "actor_speak"
  | .snippet .. => "snippet"
  | .stopConversation => "stop_conversation"
  | .stopTopic => "stop_topic"
  | .setVariable .. => "set_variable"
  | .setParameter .. => "set_actor_parameter"
  | .actorCommand .. => "actor_command"
  | .gameCommand .. => "game_command"
  | .trigger .. => "trigger"
  | .addActor .. => "actor_add"
  | .removeActor .. => "actor_remove"
  | .comment .. => "comment"

/-- The name of a kind of action, in scripts and in the log. -/
def Kind.label {L : Type} : Kind L → String
  | .cue c => c.label
  | .ifElse .. => "if_else"
  | .choice .. => "player_choice"
  | .wait .. => "wait"

/-! ### Lists of actions within an action -/

namespace Kind
variable {L M : Type}

/-- The lists an action holds: cases before the other branch, answers before what is played meanwhile. -/
def lists : Kind L → List L
  | .cue _ => []
  | .ifElse cases otherwise => cases.map (·.actions) ++ [otherwise]
  | .choice answers meanwhile _ => answers.map (·.actions) ++ [meanwhile]
  | .wait _ body => [body]

def mapLists (f : L → M) : Kind L → Kind M
  | .cue c => .cue c
  | .ifElse cases otherwise =>
    .ifElse (cases.map fun c => { condition := c.condition, actions := f c.actions }) (f otherwise)
  | .choice answers meanwhile variableName =>
    .choice (answers.map fun a => { text := a.text, condition := a.condition, actions := f a.actions })
      (f meanwhile) variableName
  | .wait condition body => .wait condition (f body)

/-- Replaces every list in turn, in the order of `lists`. -/
def mapListsM {m : Type → Type} [Monad m] (f : L → m M) : Kind L → m (Kind M)
  | .cue c => return .cue c
  | .ifElse cases otherwise => do
    let cases ← cases.mapM fun c => return { condition := c.condition, actions := ← f c.actions }
    return .ifElse cases (← f otherwise)
  | .choice answers meanwhile variableName => do
    let answers ← answers.mapM fun a =>
      return { text := a.text, condition := a.condition, actions := ← f a.actions }
    return .choice answers (← f meanwhile) variableName
  | .wait condition body => return .wait condition (← f body)

end Kind

namespace Action
variable {L M : Type}

def label (a : Action L) : String := a.kind.label

/-- The same action with another kind, whatever its lists. -/
def withKind (a : Action L) (kind : Kind M) : Action M where
  delay := a.delay
  waits := a.waits
  waitTarget := a.waitTarget
  speechOnly := a.speechOnly
  kind := kind

def mapLists (f : L → M) (a : Action L) : Action M := a.withKind (a.kind.mapLists f)

def mapListsM {m : Type → Type} [Monad m] (f : L → m M) (a : Action L) : m (Action M) := do
  return a.withKind (← a.kind.mapListsM f)

/-- The condition that keeps a loop alive that this action has started. -/
def guard? (a : Action L) : Option Condition :=
  match a.kind with
  | .wait condition _ => condition
  | _ => none

/-- Waits for the given actor. -/
def awaiting (a : Action L) (actor : String) : Action L := { a with waits := true, waitTarget := some actor }

end Action
end Dialogue
