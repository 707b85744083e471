import Dialogue.Playback.Operation

/-! Runs: a session played frame by frame without anybody watching. Choices are answered from a list, and what is
    held for the host is acknowledged at once. -/

namespace Dialogue

/-- How a session is played. -/
structure Limits where
  /-- Frames a second. -/
  frameRate : Nat
  maxSeconds : Seconds
  /-- Whether speech is skipped. -/
  fastForward : Bool
  /-- The offers to select, choice by choice; the first one, when there are no more. -/
  choices : List Nat
  deriving DecidableEq

namespace Limits

/-- The time of a frame. -/
def step (l : Limits) : Seconds := 1 / Float32.ofNat l.frameRate

/-- Frames are counted with 32 bits. -/
def maxFrames (l : Limits) : Nat := Seconds.wholeUpTo (UInt32.size - 1) (l.maxSeconds * Float32.ofNat l.frameRate)

end Limits

/-- An event with its number in the log and the frame that it has happened in. -/
structure Logged where
  sequence : Nat
  frame : Nat
  event : Event
  deriving DecidableEq

/-- A session being played. -/
structure Run where
  session : Session
  /-- How many frames have been played. -/
  frame : Nat := 0
  /-- The choices that have not been used. -/
  choices : List Nat
  log : Array Logged := #[]
  info : Array String := #[]

namespace Run

def start (s : Session) (l : Limits) : Run where
  session := s
  choices := l.choices

/-- Answers the choice that the player has been given, if any. What is not among its offers counts as the first. -/
def answerChoice (r : Run) : Run :=
  match r.session.choice with
  | none => r
  | some c =>
    let wanted := r.choices.headD 0
    let pick := if wanted < c.offers.length then wanted else 0
    { r with session := (r.session.select pick).1, choices := r.choices.tail }

/-- Takes the text for the host, and goes on if the session has been waiting for that. -/
def acknowledge (r : Run) : Run :=
  match r.session.info with
  | none => r
  | some text =>
    let s := { r.session with info := none }
    let s := if s.running && !s.options.autoAdvance then s.advance .main else s
    { r with session := s, info := r.info.push text }

/-- Takes the events of the session. -/
def collect (r : Run) : Run :=
  let logged (i : Nat) (event : Event) : Logged := { sequence := r.log.size + i, frame := r.frame, event }
  { r with session := { r.session with events := #[] }, log := r.log ++ r.session.events.mapIdx logged }

/-- Plays a frame. -/
def next (l : Limits) (r : Run) : Option Run := do
  let s ← r.session.update l.step
  let s ← if l.fastForward then (·.1) <$> s.fastForward else some s
  return { r with session := s, frame := r.frame + 1 }.answerChoice.acknowledge.collect

/-- Plays no more than `left` frames, while the session is running. -/
def play (l : Limits) : (left : Nat) → Run → Option Run
  | 0, r => some r
  | left + 1, r =>
    if r.session.running then
      match r.next l with
      | none => none
      | some r => play l left r
    else some r

end Run

/-- Plays a session until it stops or its time is over. -/
def Session.run (s : Session) (l : Limits) : Option Run := (Run.start s l).play l l.maxFrames
end Dialogue
