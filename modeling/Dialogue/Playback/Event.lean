import Dialogue.Playback.Lane

/-! Events: what has happened during playback, for its log. -/

namespace Dialogue

inductive Event where
  | rewound
  /-- The main lane has come to its end and nobody speaks. -/
  | ended
  | dispatched (lane : LaneId) (action : ActionRef) (label : String)
  | entered (lane : LaneId) (list : ListRef)
  | left (lane : LaneId)
  | loopCancelled (lane : LaneId) (depth : Nat)
  /-- The condition of a loop has failed. -/
  | loopEnded (lane : LaneId) (depth : Nat)
  | selected (option : Nat)
  | laneAdded (number : Nat)
  | laneRemoved (number : Nat)
  | actorRemoved (name : String)
  deriving DecidableEq

def Event.text : Event → String
  | .rewound => "playback.rewind"
  | .ended => "playback.end"
  | .dispatched lane action label => "action.dispatch " ++ lane.text ++ " " ++ action.text ++ " " ++ label
  | .entered lane list => "stack.push " ++ lane.text ++ " " ++ list.text
  | .left lane => "stack.pop " ++ lane.text
  | .loopCancelled lane depth => "loop.cancel " ++ lane.text ++ " " ++ toString depth
  | .loopEnded lane depth => "loop.end " ++ lane.text ++ " " ++ toString depth
  | .selected option => "choice.select " ++ toString option
  | .laneAdded number => "side.add " ++ (LaneId.side number).text
  | .laneRemoved number => "side.remove " ++ (LaneId.side number).text
  | .actorRemoved name => "actor.remove " ++ name

end Dialogue
