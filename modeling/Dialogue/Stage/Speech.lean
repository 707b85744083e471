import Dialogue.Seconds

/-! What an actor is saying, and how far the line has got. -/

namespace Dialogue

structure Speech where
  /-- How long the line takes. -/
  length : Seconds := 0
  elapsed : Seconds := 0
  /-- The words shown until the line is done. -/
  text : Option String := none
  deriving DecidableEq

namespace Speech

def isDone (s : Speech) : Bool := s.length ≤ s.elapsed

/-- A new line, of no negative length. -/
def saying (length : Seconds) (text : Option String) : Speech where
  length := length.latest 0
  text := text

/-- The line after some time. -/
def after (s : Speech) (elapsed : Seconds) : Speech :=
  let later := { s with elapsed := s.elapsed + elapsed }
  if later.isDone then { later with text := none } else later

end Speech
end Dialogue
