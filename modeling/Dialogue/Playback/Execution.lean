import Dialogue.Playback.Session

/-! What actions do. An action that is done moves its lane on; one that does not is carried out again in the next
    frame. A new side lane is played as far as it goes at once, by the function `start` that is passed down. -/

namespace Dialogue

/-! ### Numbers -/

/-- The number, or the closest one that there is. -/
def saturate (n : Int) : Int32 :=
  if n < Int32.minValue.toInt then Int32.minValue
  else if Int32.maxValue.toInt < n then Int32.maxValue
  else Int32.ofInt n

/-- The new value of a number. -/
def SetOperator.apply (current operand : Int32) (chance : Chance) : SetOperator → Int32 × Chance
  | .set => (operand, chance)
  | .increment => (saturate (current.toInt + operand.toInt), chance)
  | .decrement => (saturate (current.toInt - operand.toInt), chance)
  | .random => chance.towards operand

/-- The number that is put in: the value of a variable if one is named and has a value. -/
def World.given (w : World) (o : Operand) : Int32 := (o.named?.bind w.values.get?).getD o.value

/-! ### Texts for the host -/

namespace Info

def noActor (name : String) : String := "No actor with ID '" ++ name ++ "' exists."

def conversationStop : String := "Conversation Stop"

def actorCommand (actor command : String) : String := "Actor Command: " ++ actor ++ " => " ++ command

def gameCommand (command : String) : String := "Game Command: " ++ command

def trigger (name : String) (action : TriggerAction) : String :=
  let done := match action with
    | .fire => "Fire"
    | .reset => "Reset"
    | .pulse => "Pulse"
    | .fullReset => "FullReset"
  "Trigger: " ++ name ++ " (" ++ done ++ ")"

def addActor (id : String) : String := "Actor Add: " ++ id

def removeActor (actor : String) : String := "Actor Remove: " ++ actor

end Info

namespace Session

/-- Goes on after a command at once, or tells the host and stays. -/
def announce (s : Session) (id : LaneId) (info : String) : Session :=
  if s.options.autoAdvance then s.advance id else { s with info := some info }

/-- How long a line takes: as long as its words, and no less than its least time. -/
def speechLength (minTime : Seconds) (words : List Word) : Seconds :=
  minTime.latest (words.foldl (fun sum w => sum + (w.pause + w.duration)) 0)

/-- Has the actor in a slot say a line, unless it takes no time. -/
def speak (s : Session) (slot : Nat) (length : Seconds) (text : Option String) : Session :=
  if 0 < length then s.changeSpeech slot fun _ => .saying length text else s

def setVariable (s : Session) (chance : Chance) (name : String) (change : Change) : Session :=
  if name = "" then s
  else
    let (value, chance) := change.operator.apply (s.world.value name) (s.world.given change.operand) chance
    { s with world := s.world.setVariable name value, interpreter := .scripted chance }

def setParameter (s : Session) (chance : Chance) (actor name : String) (change : Change) : Session :=
  if name = "" ∨ (s.world.actor? actor).isNone then s
  else
    let current := (s.world.parameter? actor name).getD 0
    let (value, chance) := change.operator.apply current (s.world.given change.operand) chance
    { s with world := s.world.setParameter actor name value, interpreter := .scripted chance }

/-- Offers the answers whose conditions hold, while the lane plays a list over and over. -/
def ask (s : Session) (id : LaneId) (action : ActionRef) (answers : List (Answer ListId)) (meanwhile : ListId) :
    Session :=
  let s := s.enter id { s.cursor (.script meanwhile) with parent := some action, looping := true }
  let isOpen (a : Answer ListId) : Bool := a.condition.all (·.holds s.world)
  let offers := (answers.zipIdx.filter fun (a, _) => isOpen a).map fun (a, i) => { text := a.text, option := i : Offer }
  if h : offers = [] then { s with choice := none }.advance id
  else
    let depth := (s.lane? id).elim 0 Lane.depth
    { s with choice := some { lane := id, depth, action, offers, offers_ne := h } }

variable (start : Session → Lane → Option Session)

/-- Carries out a cue. -/
def perform (s : Session) (chance : Chance) (id : LaneId) (action : ActionRef) : Cue → Option Session
  | .cameraShot name duration => some ({ s with camera := .shooting name duration }.advance id)
  | .speak actor text minTime words =>
    match s.world.actorIndex? actor with
    | none => some { s with info := some (Info.noActor actor), running := false }
    | some slot => some ((s.speak slot (speechLength minTime words) text).advance id)
  | .snippet file topic sideLane =>
    match s.conversation.findTopic? file topic with
    | none => some (s.advance id)
    | some t =>
      if sideLane then do return (← start s (s.topicLane t (some action))).advance id
      else
        match s.topicCursor? t with
        | none => some s
        | some c => some (s.enter id { c with parent := some action })
  | .stopConversation =>
    let s := s.changeLane id fun l => (l.truncate 1).changeTop Cursor.forwardEnd
    some { s with info := some Info.conversationStop }
  | .stopTopic => some ((s.changeLane id fun l => l.leaveToTopic.changeTop Cursor.forwardLast).advance id)
  | .setVariable name change => some ((s.setVariable chance name change).advance id)
  | .setParameter actor name change => some ((s.setParameter chance actor name change).advance id)
  | .actorCommand actor command => some (s.announce id (Info.actorCommand actor command))
  | .gameCommand command => some (s.announce id (Info.gameCommand command))
  | .trigger name action =>
    some ({ s with world := s.world.apply name action }.announce id (Info.trigger name action))
  | .addActor actor alias? =>
    let s := if (s.world.actor? actor).isSome then s
      else s.addActor { id := actor, alias?, parameters := .empty, commands := .empty }
    some (s.announce id (Info.addActor actor))
  | .removeActor actor => some ((s.removeActor actor).announce id (Info.removeActor actor))
  | .comment _ => some (s.advance id)

/-- Carries out an action. -/
def execute (s : Session) (id : LaneId) (ref : ActionRef) (a : Action ListId) : Option Session :=
  match s.interpreter with
  | .recording noted => some ({ s with interpreter := .recording ((ref, a.label) :: noted) }.advance id)
  | .scripted chance =>
    match a.kind with
    | .cue c => s.perform start chance id ref c
    | .ifElse cases otherwise =>
      let chosen := ((cases.find? fun c => c.condition.any (·.holds s.world)).map (·.actions)).getD otherwise
      if (s.conversation.list chosen).isEmpty then some (s.advance id)
      else some (s.enter id { s.cursor (.script chosen) with parent := some ref })
    | .choice answers meanwhile _ => some (s.ask id ref answers meanwhile)
    | .wait none _ => some (s.advance id)
    | .wait (some _) body =>
      some (s.enter id { s.cursor (.script body) with parent := some ref, guard := some ref, looping := true })

end Session
end Dialogue
