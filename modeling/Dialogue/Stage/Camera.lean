import Dialogue.Seconds

/-! The shot that the camera is on, and how far it has got. -/

namespace Dialogue

structure Camera where
  shot : Option String := none
  duration : Seconds := 0
  elapsed : Seconds := 0
  deriving DecidableEq

namespace Camera

/-- A new shot, of no negative duration. -/
def shooting (shot : String) (duration : Seconds) : Camera where
  shot := some shot
  duration := duration.latest 0

/-- The same shot from its start. -/
def rewind (c : Camera) : Camera := { c with elapsed := 0 }

/-- The camera after some time, which only passes while there is a shot. -/
def after (c : Camera) (elapsed : Seconds) : Camera :=
  if c.shot.isSome then { c with elapsed := c.elapsed + elapsed } else c

/-- Shots of at most this duration are complete from the start: `2 ^ -23` seconds. -/
def instant : Seconds := Float32.ofScientific 11920929 true 14

/-- How much of the shot is over, from zero to one. -/
def progress (c : Camera) : Float32 :=
  if c.duration ≤ instant then 1 else Seconds.clamp 0 1 (c.elapsed / c.duration)

end Camera
end Dialogue
