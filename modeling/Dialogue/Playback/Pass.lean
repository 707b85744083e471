import Dialogue.Playback.Execution

/-! Passes: one round of work on one lane. A pass first ends the outermost loop whose condition has failed, and then
    either carries out the next action, if its actors and its delay allow, or leaves a list that is at its end.
    A side lane that is added has its first pass at once, within the pass that adds it. Where such passes go on
    within each other for ever, there is no state to return, and the answer is `none`. -/

namespace Dialogue
namespace Session

/-! ### Loops -/

/-- Whether a cursor keeps looping though its condition has failed. -/
def isBroken (s : Session) (c : Cursor) : Bool :=
  c.looping && ((c.guard.bind s.action?).bind Action.guard?).any fun condition => !condition.holds s.world

/-- Ends the outermost broken loop of a lane, together with everything within it. -/
def endBrokenLoop (s : Session) (id : LaneId) : Session :=
  match (s.lane? id).bind fun l => l.cursors.findIdx? s.isBroken with
  | none => s
  | some depth =>
    (s.changeLane id fun l =>
      ((l.truncate (depth + 1)).changeAt depth fun c => c.release.forwardEnd).prime).record (.loopEnded id depth)

/-! ### Waiting -/

/-- Whether the actor in a slot has to be waited for. -/
def isBusy (s : Session) (speechOnly : Bool) (index : Nat) : Bool :=
  s.slots[index]?.any (fun speech => !speech.isDone) || (!speechOnly && s.world.actors[index]?.any (·.waiting))

/-- Whether an action has to wait for actors. -/
def mustWait (s : Session) (a : Action ListId) : Bool :=
  a.waits &&
    match a.waitTarget.filter (· ≠ "") with
    | some name => (s.world.actorIndex? name).any (s.isBusy a.speechOnly)
    | none => (List.range s.slots.length).any (s.isBusy a.speechOnly)

/-! ### Passes -/

/-- Carries out an action when its time has come. -/
def attempt (start : Session → Lane → Option Session) (s : Session) (id : LaneId) (l : Lane) (ref : ActionRef)
    (a : Action ListId) (elapsed : Seconds) : Option Session :=
  if l.waiting && s.mustWait a then some s
  else
    let time := l.time + elapsed
    let s := s.changeLane id fun l => { l with waiting := false, time }
    if time < a.delay then some s
    else do
      let s := { s with lastPlayed := some { topic := l.topic?, action := ref } }.record (.dispatched id ref a.label)
      let s ← s.execute start id ref a
      return s.changeLane id Lane.prime

/-- What happens to a lane that is at its end: the main lane ends playback once nobody speaks, a side lane is
    removed. -/
def finish (s : Session) : LaneId → Session
  | .main => if s.allSilent then { s with running := false }.record .ended else s
  | .side n => s.removeLane n

/-- Adds a side lane, which has its first pass at once. -/
def addPlaying (pass : Session → LaneId → Seconds → Option Session) (s : Session) (l : Lane) : Option Session :=
  pass (s.addLane l) (.side s.nextSide) 0

/-- One pass, with no more than `fuel` passes within each other. -/
def passWithin : Nat → Session → LaneId → Seconds → Option Session
  | 0, _, _, _ => none
  | fuel + 1, s, id, elapsed =>
    let s := if id = .main ∧ s.main.cursors.isEmpty then s.advance .main else s
    let s := s.endBrokenLoop id
    match s.lane? id with
    | none => some s
    | some l =>
      match l.action? with
      | some ref =>
        match s.action? ref with
        | none => some s
        | some a => s.attempt (addPlaying (passWithin fuel)) id l ref a elapsed
      | none =>
        if l.top?.any (·.looping) then some s
        else if 1 < l.depth then some (s.advance id)
        else some (s.finish id)

/-- Passes within each other start different topics, or else they never end. -/
def patience (s : Session) : Nat := s.conversation.topics.length + 2

/-- One pass on a lane after some time; nothing, if it does not end. -/
def pass (s : Session) (id : LaneId) (elapsed : Seconds) : Option Session := s.passWithin s.patience id elapsed

end Session
end Dialogue
