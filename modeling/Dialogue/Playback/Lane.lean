import Dialogue.Seconds
import Dialogue.Playback.Cursor

/-! Lanes: what is being played at one place. A lane is a stack of cursors, each list entered from an action of the
    one below it, with the time that the next action has been waiting for. -/

namespace Dialogue

inductive LaneId where
  | main
  | side (number : Nat)
  deriving DecidableEq

def LaneId.text : LaneId → String
  | .main => "main"
  | .side n => "side#" ++ toString n

structure Lane where
  /-- The cursors from the outermost list to the innermost one. -/
  cursors : List Cursor := []
  /-- Whether the next action still has to wait for actors. -/
  waiting : Bool := true
  /-- The time since the next action does not wait for actors any more. -/
  time : Seconds := 0
  deriving DecidableEq

namespace Lane

def depth (l : Lane) : Nat := l.cursors.length

/-- The innermost cursor. -/
def top? (l : Lane) : Option Cursor := l.cursors.getLast?

/-- The next action of the innermost list. -/
def action? (l : Lane) : Option ActionRef := l.top?.bind Cursor.action?

/-- The topic that has been entered last. -/
def topic? (l : Lane) : Option TopicId := l.cursors.reverse.findSome? (·.topic)

/-- Makes ready for another action, which waits from now on. -/
def prime (l : Lane) : Lane := { l with waiting := true, time := 0 }

/-- Enters a list. -/
def push (l : Lane) (c : Cursor) : Lane := { l with cursors := l.cursors ++ [c] }

/-- Leaves the innermost list, but not the outermost one. -/
def pop (l : Lane) : Lane := if l.depth ≤ 1 then l else { l with cursors := l.cursors.dropLast }

/-- Leaves lists until there are no more than `depth`, but not the outermost one. -/
def truncate (l : Lane) (depth : Nat) : Lane := { l with cursors := l.cursors.take (max depth 1) }

/-- Changes the cursor with `depth` cursors below it. -/
def changeAt (depth : Nat) (f : Cursor → Cursor) (l : Lane) : Lane := { l with cursors := l.cursors.modify depth f }

/-- Changes the innermost cursor. -/
def changeTop (f : Cursor → Cursor) (l : Lane) : Lane := l.changeAt (l.depth - 1) f

/-- Leaves lists until one is reached that belongs to a topic, or the outermost one. -/
def leaveToTopic (l : Lane) : Lane :=
  { l with cursors :=
      match (l.cursors.reverse.dropWhile fun c => c.topic.isNone).reverse with
      | [] => l.cursors.take 1
      | kept => kept }

/-- The lane after its current action is done. At the end of an inner list the lane goes on after the action that has
    entered the list, and the second component is true. -/
def advance (l : Lane) : Lane × Bool :=
  let on := l.changeTop Cursor.advance
  if on.action?.isSome then (on.prime, false)
  else if 1 < on.depth then ((on.pop.changeTop Cursor.advance).prime, true)
  else (on, false)

end Lane
end Dialogue
