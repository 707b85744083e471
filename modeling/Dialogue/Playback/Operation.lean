import Dialogue.Playback.Pass

/-! What a host does with a session. Every operation returns a session, unless side lanes start each other for ever
    (`none`). -/

namespace Dialogue
namespace Session

/-! ### Time -/

/-- The side lanes have a pass each, in the order of their numbers, and then the main lane has one. Lanes that are
    added meanwhile are not among them. -/
def passes (s : Session) (elapsed : Seconds) : Option Session := do
  let s ← s.sides.foldlM (fun s (n, _) => s.pass (.side n) elapsed) s
  s.pass .main elapsed

/-- Lets time pass. -/
def update (s : Session) (elapsed : Seconds) : Option Session := do
  let s ←
    if s.hasScript && s.running && !s.paused then
      let s := s.syncSlots
      { s with slots := s.slots.map (Speech.after · elapsed) }.passes elapsed
    else some s
  return { s with camera := s.camera.after elapsed }

/-- Lets frames pass until nobody speaks, but no more than `left` of them; returns `taken` and how many it were. -/
def skipSpeech : (left : Nat) → (taken : Nat) → Session → Option (Session × Nat)
  | 0, taken, s => some (s, taken)
  | left + 1, taken, s =>
    if s.running && !s.paused && !s.allSilent then
      match s.update s.options.fastForwardStep with
      | none => none
      | some s => skipSpeech left (taken + 1) s
    else some (s, taken)

/-- Skips what is being said; returns the number of frames that it took. -/
def fastForward (s : Session) : Option (Session × Nat) := skipSpeech s.options.fastForwardLimit 0 s

/-! ### Lanes and choices -/

/-- Leaves the lists above a cursor, which does not loop any more; nothing, if there is no such cursor. -/
def unwind (s : Session) (id : LaneId) (depth : Nat) : Option Session :=
  match s.lane? id with
  | none => none
  | some l =>
    if depth < l.depth then
      some ((s.changeLane id fun l => ((l.truncate (depth + 1)).changeAt depth Cursor.release).prime).record
        (.loopCancelled id depth))
    else none

/-- Stops a loop of the main lane, if there is a cursor at that depth. -/
def cancelLoop (s : Session) (depth : Nat) : Session := (s.unwind .main depth).getD s

/-- Does what an offer of a choice stands for, in place of the loop that has been playing meanwhile. -/
def answer (s : Session) (c : Choice) (o : Offer) : Session :=
  let s := (s.changeLane c.lane (Lane.changeAt (c.depth - 1) Cursor.forwardEnd)).record (.selected o.option)
  match (s.action? c.action).map Action.kind with
  | some (.choice answers _ variableName) =>
    let s := match variableName.filter (· ≠ "") with
      | some name => { s with world := s.world.setVariable name (saturate o.option) }
      | none => s
    match answers[o.option]? with
    | some a =>
      if (s.conversation.list a.actions).isEmpty then s
      else s.enter c.lane { s.cursor (.script a.actions) with parent := some c.action }
    | none => s
  | _ => s

/-- Selects one of the offers; whether this could be done. -/
def select (s : Session) (index : Nat) : Session × Bool :=
  match s.choice with
  | none => (s, false)
  | some c =>
    match c.offers[index]? with
    | none => (s, false)
    | some o =>
      let s := { s with choice := none }
      match s.unwind c.lane (c.depth - 1) with
      | none => (s, false)
      | some s => (s.answer c o, true)

/-- Adds a side lane, which has its first pass at once. -/
def addSide (s : Session) (l : Lane) : Option Session := addPlaying pass s l

/-- Tries out one action on its own, for some time at once. -/
def playSingle (s : Session) (a : Action ListId) (seconds : Seconds) : Option Session :=
  let s := { { s with preview := some a }.rewind with running := true, paused := false }
  if 0 < seconds then s.update seconds else some s

end Session

/-! ### Operations as data -/

/-- A change that a host makes to what an actor is saying. -/
inductive Speech.Op where
  | begin (length : Seconds) (text : Option String)
  | update (elapsed : Seconds)
  | reset

def Speech.step (s : Speech) : Op → Speech
  | .begin length text => .saying length text
  | .update elapsed => s.after elapsed
  | .reset => {}

/-- A change that a host makes to the world. -/
inductive World.Op where
  | addActor (actor : Actor)
  | removeActor (name : String)
  | setVariable (name : String) (value : Int32)
  | setGameCommand (command : String) (value : Bool)
  | setWaiting (actor : String) (value : Bool)
  | setActorCommand (actor command : String) (value : Bool)
  | trigger (name : String) (action : TriggerAction)

def World.step (w : World) : Op → World
  | .addActor actor => w.addActor actor
  | .removeActor name => w.removeActor name
  | .setVariable name value => w.setVariable name value
  | .setGameCommand command value => w.setGameCommand command value
  | .setWaiting actor value => w.setWaiting actor value
  | .setActorCommand actor command value => w.setActorCommand actor command value
  | .trigger name action => w.apply name action

namespace Session

/-- An operation of the host. -/
inductive Op where
  | setTopic (topic : Option TopicId)
  | setRunning (value : Bool)
  | setPaused (value : Bool)
  | setAutoAdvance (value : Bool)
  | update (elapsed : Seconds)
  | rewind
  | advance
  | fastForward
  | cancelLoop (depth : Nat)
  | select (index : Nat)
  | playSingle (action : Action ListId) (seconds : Seconds)
  | addSide (lane : Lane)
  | addActor (actor : Actor)
  | removeActor (name : String)
  | speech (slot : Nat) (op : Speech.Op)
  | world (op : World.Op)
  | takeInfo
  | takeEvents

/-- What the host gets back. -/
inductive Reply where
  | done
  | frames (count : Nat)
  | selected (could : Bool)
  | lane (number : Nat)
  | slot (index : Nat)
  | actor (removed : Option Actor)
  | info (text : Option String)
  | events (log : Array Event)

/-- Carries out an operation. -/
def step (s : Session) : Op → Option (Session × Reply)
  | .setTopic topic => some (s.setTopic topic, .done)
  | .setRunning value => some ({ s with running := value }, .done)
  | .setPaused value => some ({ s with paused := value }, .done)
  | .setAutoAdvance value => some ({ s with options := { s.options with autoAdvance := value } }, .done)
  | .update elapsed => do return (← s.update elapsed, .done)
  | .rewind => some (s.rewind, .done)
  | .advance => some (s.advance .main, .done)
  | .fastForward => do
    let (s, count) ← s.fastForward
    return (s, .frames count)
  | .cancelLoop depth => some (s.cancelLoop depth, .done)
  | .select index =>
    let (s, could) := s.select index
    some (s, .selected could)
  | .playSingle action seconds => do return (← s.playSingle action seconds, .done)
  | .addSide lane => do return (← s.addSide lane, .lane s.nextSide)
  | .addActor actor => some (s.addActor actor, .slot s.world.actors.length)
  | .removeActor name => some (s.removeActor name, .actor (s.world.actor? name))
  | .speech slot op => some (s.changeSpeech slot fun speech => speech.step op, .done)
  | .world op => some ({ s with world := s.world.step op }, .done)
  | .takeInfo => some ({ s with info := none }, .info s.info)
  | .takeEvents => some ({ s with events := #[] }, .events s.events)

end Session
end Dialogue
