import Dialogue.Script.Conversation

/-! Cursors: places in lists of actions. A cursor knows where its list has been entered from, whether it starts over at
    the end of the list, and which action is next. -/

namespace Dialogue

/-- A list of a conversation, or the list of the one action that is tried out on its own. -/
inductive ListRef where
  | script (list : ListId)
  | preview
  deriving DecidableEq

structure ActionRef where
  list : ListRef
  index : Nat
  deriving DecidableEq

def ListRef.text : ListRef → String
  | .script l => "list" ++ toString l.index
  | .preview => "preview"

def ActionRef.text (a : ActionRef) : String := a.list.text ++ "[" ++ toString a.index ++ "]"

/-- The action at an index of a list, unless the list is shorter. -/
def ListRef.action? (list : ListRef) (length index : Nat) : Option ActionRef :=
  if index < length then some ⟨list, index⟩ else none

/-- A cursor keeps the next action, which has to be found again whenever the cursor moves. -/
structure Cursor where
  /-- The topic whose list this is, if a topic has been entered here. -/
  topic : Option TopicId := none
  /-- The action that has entered the list. -/
  parent : Option ActionRef := none
  list : ListRef
  /-- How many actions the list has. -/
  length : Nat
  /-- The action whose condition keeps the cursor looping. -/
  guard : Option ActionRef := none
  looping : Bool := false
  /-- The index of the next action. -/
  next : Nat := 0
  /-- The next action, unless the list is at its end. -/
  action? : Option ActionRef := list.action? length next
  action?_eq : action? = list.action? length next := by rfl
  deriving DecidableEq

namespace Cursor

/-- At an index of the list. -/
def goTo (c : Cursor) (index : Nat) : Cursor :=
  { c with next := index, action? := c.list.action? c.length index, action?_eq := rfl }

/-- One action on; a looping cursor goes from the end of its list to the start. -/
def advance (c : Cursor) : Cursor :=
  let next := min (c.next + 1) c.length
  c.goTo (if c.looping ∧ c.length ≤ next then 0 else next)

/-- After the last action. -/
def forwardEnd (c : Cursor) : Cursor := c.goTo c.length

/-- At the last action. -/
def forwardLast (c : Cursor) : Cursor := c.goTo (c.length - 1)

/-- The cursor does not start over any more. -/
def release (c : Cursor) : Cursor := { c with looping := false }

end Cursor
end Dialogue
