import Dialogue.Playback.Chance
import Dialogue.Playback.Choice
import Dialogue.Playback.Event
import Dialogue.Playback.Options
import Dialogue.Stage.Camera
import Dialogue.Stage.Evaluation
import Dialogue.Stage.Speech

/-! Sessions: a conversation being played, its lanes and its stage. This module holds the state and the small steps
    on it that actions and the host share. -/

namespace Dialogue

/-- What carries out actions, with what it keeps from one action to the next. -/
inductive Interpreter where
  /-- Does what actions say. -/
  | scripted (chance : Chance)
  /-- Only notes actions, the last one first, with their labels, and goes on. -/
  | recording (noted : List (ActionRef × String))

/-- The action that has been carried out last, and the topic it was played for. -/
structure LastPlayed where
  topic : Option TopicId
  action : ActionRef
  deriving DecidableEq

structure Session where
  conversation : Conversation
  interpreter : Interpreter
  options : Options
  /-- The topic that is played, which may not exist. -/
  topic : Option TopicId := none
  /-- An action that is tried out on its own, in place of the topic. -/
  preview : Option (Action ListId) := none
  main : Lane := {}
  /-- The side lanes by their numbers, in ascending order. -/
  sides : List (Nat × Lane) := []
  /-- The number of the next side lane. -/
  nextSide : Nat := 1
  /-- What the actors of the world are saying, one slot an actor. -/
  slots : List Speech
  world : World
  camera : Camera := {}
  choice : Option Choice := none
  running : Bool := false
  paused : Bool := false
  lastPlayed : Option LastPlayed := none
  /-- A text for the host. -/
  info : Option String := none
  /-- What has happened since the host last took the log. -/
  events : Array Event := #[]

namespace Session

/-- A session at its start, with no topic. -/
def start (conversation : Conversation) (interpreter : Interpreter) (options : Options) : Session where
  conversation
  interpreter
  options
  slots := conversation.profiles.map fun _ => {}
  world := conversation.world

def record (s : Session) (e : Event) : Session := { s with events := s.events.push e }

/-! ### Look-up -/

/-- Whether there is something to play. -/
def hasScript (s : Session) : Bool := s.topic.isSome || s.preview.isSome

def list (s : Session) : ListRef → List (Action ListId)
  | .script l => s.conversation.list l
  | .preview => s.preview.toList

def action? (s : Session) (a : ActionRef) : Option (Action ListId) := (s.list a.list)[a.index]?

/-- The action that has been carried out last. -/
def lastAction? (s : Session) : Option (Action ListId) := s.lastPlayed.bind fun last => s.action? last.action

/-- A cursor at the start of a list. -/
def cursor (s : Session) (list : ListRef) : Cursor := { list, length := (s.list list).length }

/-- A cursor at the start of a topic. -/
def topicCursor? (s : Session) (t : TopicId) : Option Cursor :=
  (s.conversation.topic? t).map fun topic => { s.cursor (.script topic.root) with topic := some t }

/-- Where the main lane starts. -/
def root? (s : Session) : Option Cursor :=
  if s.preview.isSome then some (s.cursor .preview) else s.topic.bind s.topicCursor?

/-- A lane at the start of a topic; an empty one, if there is no such topic. -/
def topicLane (s : Session) (t : TopicId) (parent : Option ActionRef) : Lane where
  cursors := (s.topicCursor? t).toList.map fun c => { c with parent }

/-! ### Lanes -/

def lane? (s : Session) : LaneId → Option Lane
  | .main => some s.main
  | .side n => s.sides.lookup n

/-- Changes a lane, if it is there. -/
def changeLane (s : Session) (id : LaneId) (f : Lane → Lane) : Session :=
  match id with
  | .main => { s with main := f s.main }
  | .side n => { s with sides := s.sides.map fun (m, l) => if m = n then (m, f l) else (m, l) }

def addLane (s : Session) (l : Lane) : Session :=
  { s with sides := s.sides ++ [(s.nextSide, l)], nextSide := s.nextSide + 1 }.record (.laneAdded s.nextSide)

def removeLane (s : Session) (number : Nat) : Session :=
  { s with sides := s.sides.filter fun (m, _) => m ≠ number }.record (.laneRemoved number)

/-- Enters a list. -/
def enter (s : Session) (id : LaneId) (c : Cursor) : Session :=
  (s.record (.entered id c.list)).changeLane id fun l => l.prime.push c

/-- Goes on with the next action of a lane. A lane that is empty starts at the root; without anything to play the
    session stops. -/
def advance (s : Session) (id : LaneId) : Session :=
  if s.hasScript then
    match s.lane? id with
    | none => s
    | some l =>
      if l.cursors.isEmpty then s.changeLane id fun l => { l with cursors := s.root?.toList }.prime
      else
        let (l, left) := l.advance
        let s := s.changeLane id fun _ => l
        if left then s.record (.left id) else s
  else { s with running := false }

/-! ### Actors -/

/-- Brings the slots to the number of the actors; those that are missing are silent. -/
def syncSlots (s : Session) : Session :=
  let count := s.world.actors.length
  { s with slots := s.slots.take count ++ List.replicate (count - s.slots.length) {} }

def allSilent (s : Session) : Bool := s.slots.all Speech.isDone

/-- Changes what the actor in a slot is saying. -/
def changeSpeech (s : Session) (index : Nat) (f : Speech → Speech) : Session :=
  let s := s.syncSlots
  { s with slots := s.slots.modify index f }

/-- A new actor, who is silent. -/
def addActor (s : Session) (a : Actor) : Session :=
  let s := s.syncSlots
  { s with world := s.world.addActor a, slots := s.slots ++ [{}] }

/-- Removes the actor who answers to a name together with the slot. -/
def removeActor (s : Session) (name : String) : Session :=
  let s := s.syncSlots
  match s.world.actorIndex? name with
  | none => s
  | some index =>
    { s with world := s.world.removeActor name, slots := s.slots.eraseIdx index }.record (.actorRemoved name)

/-! ### Starting over -/

/-- Forgets what has been played and starts again at the root. The world stays as it is. -/
def rewind (s : Session) : Session :=
  let s := { s with main := {}, sides := [] }.syncSlots
  let s := { s with
    slots := s.slots.map fun _ => {}
    info := none
    choice := none
    camera := {}
    lastPlayed := none }
  (s.record .rewound).advance .main

/-- Chooses the topic to play, or none. Another topic starts at its beginning. -/
def setTopic (s : Session) (topic : Option TopicId) : Session :=
  if s.topic = topic ∧ s.preview.isNone then s else { s with topic, preview := none }.rewind

end Session
end Dialogue
