import Dialogue.Playback.Execution

/-! Performances: what a script means, told without lanes, cursors and frames. A list is performed in its order. A
    branch performs the list that it chooses, a topic that is played in place is performed where it is called, and a
    loop performs its body again and again. Before any action the conditions of all loops around it are looked at; if
    one has failed, the outermost such loop is over, with everything in it. -/

namespace Dialogue

/-- The new value of a number that is not drawn at random. -/
def SetOperator.result? (current operand : Int32) : SetOperator → Option Int32
  | .set => some operand
  | .increment => some (saturate (current.toInt + operand.toInt))
  | .decrement => some (saturate (current.toInt - operand.toInt))
  | .random => none

/-- The world after a change of a variable. A variable without a name is not changed. -/
def World.changed? (w : World) (name : String) (change : Change) : Option World :=
  if name = "" then some w
  else (change.operator.result? (w.value name) (w.given change.operand)).map (w.setVariable name)

/-- The first of some loops, from the outermost on, whose condition has failed. -/
def World.failed? (w : World) (loops : List Condition) : Option Nat :=
  loops.findIdx? fun condition => !condition.holds w

/-- What can be performed. -/
inductive Part where
  /-- A list from one of its actions on. -/
  | list (list : ListId) (start : Nat)
  /-- A list over and over, as long as a condition holds. -/
  | loop (condition : Condition) (body : ListId)

/-- How the performance of a part ends. -/
inductive Ending where
  | complete
  /-- A loop around the part is over, one that has `loop` others around it. -/
  | broken (loop : Nat)
  deriving DecidableEq

/-- How a loop with `outer` others around it ends, if its body ends because loop `loop` is over. -/
def Ending.ofLoop (outer loop : Nat) : Ending := if loop = outer then .complete else .broken loop

namespace Conversation

/-- The list that a branch chooses. -/
def chosen (w : World) (cases : List (Case ListId)) (otherwise : ListId) : ListId :=
  ((cases.find? fun k => k.condition.any (·.holds w)).map (·.actions)).getD otherwise

/-- What an action does to the world, and the part that is performed within it. Only comments, shots, changes of
    variables that are not random, branches, topics played in place and waits have a meaning here. -/
def effect? (c : Conversation) (w : World) (a : Action ListId) : Option (World × Option Part) :=
  match a.kind with
  | .cue (.comment _) => some (w, none)
  | .cue (.cameraShot _ _) => some (w, none)
  | .cue (.setVariable name change) => (w.changed? name change).map (·, none)
  | .cue (.snippet file topic false) =>
    some (w, ((c.findTopic? file topic).bind c.topic?).map fun t => .list t.root 0)
  | .ifElse cases otherwise => some (w, some (.list (chosen w cases otherwise) 0))
  | .wait none _ => some (w, none)
  | .wait (some condition) body => some (w, some (.loop condition body))
  | _ => none

variable (c : Conversation)

/-- `Performs loops w part trace v ending`: within loops with these conditions, from the outermost to the innermost,
    the part is performed in the world `w`; it carries out the actions `trace` and leaves the world `v`. -/
inductive Performs : List Condition → World → Part → List ActionRef → World → Ending → Prop where
  /-- There is no further action. -/
  | atEnd {loops w l i} (hend : c.action? l i = none) : Performs loops w (.list l i) [] w .complete
  /-- There is one, but a loop around it is over. -/
  | stopped {loops w l i a k} (ha : c.action? l i = some a) (hfail : w.failed? loops = some k) :
      Performs loops w (.list l i) [] w (.broken k)
  /-- An action with nothing in it. -/
  | simple {loops w l i a v trace u ending} (ha : c.action? l i = some a) (hfail : w.failed? loops = none)
      (heffect : c.effect? w a = some (v, none)) (hrest : Performs loops v (.list l (i + 1)) trace u ending) :
      Performs loops w (.list l i) (⟨.script l, i⟩ :: trace) u ending
  /-- An action with a part in it, and what follows it. -/
  | nested {loops w l i a v part inner u trace x ending} (ha : c.action? l i = some a)
      (hfail : w.failed? loops = none) (heffect : c.effect? w a = some (v, some part))
      (hpart : Performs loops v part inner u .complete) (hrest : Performs loops u (.list l (i + 1)) trace x ending) :
      Performs loops w (.list l i) (⟨.script l, i⟩ :: (inner ++ trace)) x ending
  /-- An action with a part in it in which a loop around the action ends. -/
  | cut {loops w l i a v part inner u k} (ha : c.action? l i = some a) (hfail : w.failed? loops = none)
      (heffect : c.effect? w a = some (v, some part)) (hpart : Performs loops v part inner u (.broken k)) :
      Performs loops w (.list l i) (⟨.script l, i⟩ :: inner) u (.broken k)
  /-- A loop that is over before its body starts, itself or by a loop around it. -/
  | closed {loops w condition body k} (hfail : w.failed? (loops ++ [condition]) = some k) :
      Performs loops w (.loop condition body) [] w (.ofLoop loops.length k)
  /-- A loop whose body is performed to its end and then once more. -/
  | again {loops w condition body trace v rest u ending} (hfail : w.failed? (loops ++ [condition]) = none)
      (hbody : Performs (loops ++ [condition]) w (.list body 0) trace v .complete)
      (hloop : Performs loops v (.loop condition body) rest u ending) :
      Performs loops w (.loop condition body) (trace ++ rest) u ending
  /-- A loop that is over amid its body, itself or by a loop around it. -/
  | left {loops w condition body trace v k} (hfail : w.failed? (loops ++ [condition]) = none)
      (hbody : Performs (loops ++ [condition]) w (.list body 0) trace v (.broken k)) :
      Performs loops w (.loop condition body) trace v (.ofLoop loops.length k)

end Conversation
end Dialogue
