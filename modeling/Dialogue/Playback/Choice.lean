import Dialogue.Playback.Lane

/-! Choices: what the player is being asked. -/

namespace Dialogue

/-- An answer that may be given. -/
structure Offer where
  text : String
  /-- Its number among all answers of the choice, those that are not offered included. -/
  option : Nat
  deriving DecidableEq

/-- A choice that waits for an answer. There is always something to choose. -/
structure Choice where
  lane : LaneId
  /-- How many cursors the lane has, down to the one that plays while the choice waits. -/
  depth : Nat
  /-- The action that asks. -/
  action : ActionRef
  offers : List Offer
  offers_ne : offers ≠ []
  deriving DecidableEq

end Dialogue
