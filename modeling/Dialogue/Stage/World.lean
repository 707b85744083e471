import Dialogue.Script.Conversation

/-! The world that a conversation is played in: its actors, variables, game commands and triggers. Conditions read it,
    and actions and the host change it. -/

namespace Dialogue

/-- An actor on stage. -/
structure Actor extends Profile where
  /-- Whether the actor is busy, with a gesture or a walk. -/
  waiting : Bool := false
  deriving DecidableEq

/-- Whether a name is the actor's identifier or alias. -/
def Actor.answersTo (a : Actor) (name : String) : Bool := a.id == name || a.alias? == some name

structure Trigger where
  fired : Bool := false
  /-- Whether it has fired since it was last forgotten. -/
  hasFired : Bool := false
  deriving DecidableEq

def Trigger.after (t : Trigger) : TriggerAction → Trigger
  | .fire => { fired := true, hasFired := true }
  | .reset => { t with fired := false }
  | .pulse => { fired := false, hasFired := true }
  | .fullReset => {}

structure World where
  actors : List Actor := []
  values : Table Int32 := .empty
  gameCommands : Table Bool := .empty
  triggers : Table Trigger := .empty
  deriving DecidableEq

/-- The world that a conversation starts in. -/
def Conversation.world (c : Conversation) : World where
  actors := c.profiles.map fun p => { toProfile := p }
  values := c.values
  gameCommands := c.gameCommands

namespace World

/-! ### Actors

The first actor that answers to a name is meant by it. -/

def actorIndex? (w : World) (name : String) : Option Nat := w.actors.findIdx? (·.answersTo name)

def actor? (w : World) (name : String) : Option Actor := w.actors.find? (·.answersTo name)

def addActor (w : World) (a : Actor) : World := { w with actors := w.actors ++ [a] }

def removeActor (w : World) (name : String) : World :=
  { w with actors := w.actors.eraseP (·.answersTo name) }

/-- Changes the first of some actors that answers to a name. -/
def changeFirst (name : String) (f : Actor → Actor) : List Actor → List Actor
  | [] => []
  | a :: rest => if a.answersTo name then f a :: rest else a :: changeFirst name f rest

def changeActor (w : World) (name : String) (f : Actor → Actor) : World :=
  { w with actors := changeFirst name f w.actors }

def setWaiting (w : World) (name : String) (value : Bool) : World :=
  w.changeActor name fun a => { a with waiting := value }

def setActorCommand (w : World) (name command : String) (value : Bool) : World :=
  w.changeActor name fun a => { a with commands := a.commands.insert command value }

def setParameter (w : World) (name parameter : String) (value : Int32) : World :=
  w.changeActor name fun a => { a with parameters := a.parameters.insert parameter value }

def parameter? (w : World) (name parameter : String) : Option Int32 := do (← w.actor? name).parameters.get? parameter

def actorCommand? (w : World) (name command : String) : Option Bool := do (← w.actor? name).commands.get? command

/-! ### Variables, commands and triggers -/

/-- A variable's value, zero if it has none. -/
def value (w : World) (name : String) : Int32 := (w.values.get? name).getD 0

def setVariable (w : World) (name : String) (value : Int32) : World :=
  { w with values := w.values.insert name value }

def setGameCommand (w : World) (command : String) (value : Bool) : World :=
  { w with gameCommands := w.gameCommands.insert command value }

/-- The state of a trigger; one that nothing has been done to has not fired. -/
def trigger (w : World) (name : String) : Trigger := (w.triggers.get? name).getD {}

/-- Does something to a trigger, which is there from then on. -/
def apply (w : World) (name : String) (action : TriggerAction) : World :=
  { w with triggers := w.triggers.insert name ((w.trigger name).after action) }

end World
end Dialogue
