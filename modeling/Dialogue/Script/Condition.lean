/-! Conditions: boolean trees over the cast, variables, commands and triggers. Branches, choice filters and loop
    guards are conditions. -/

namespace Dialogue

/-- How the answers of several conditions combine. -/
inductive Junction where
  /-- No condition holds. -/
  | none
  /-- Some condition holds. -/
  | any
  /-- There are conditions, and all of them hold. -/
  | all
  deriving DecidableEq

inductive Comparison where
  | eq
  | ne
  | lt
  | le
  | gt
  | ge
  deriving DecidableEq

def Comparison.holds : Comparison → Int32 → Int32 → Bool
  | .eq, x, y => x == y
  | .ne, x, y => x != y
  | .lt, x, y => x < y
  | .le, x, y => x ≤ y
  | .gt, x, y => y < x
  | .ge, x, y => y ≤ x

/-- What is asked of a trigger. -/
inductive TriggerMode where
  | fired
  | notFired
  | everFired
  | neverFired
  deriving DecidableEq

/-- A number given literally or by the name of a variable. -/
structure Operand where
  value : Int32
  variableName : Option String
  deriving DecidableEq

/-- The variable that is named; an empty name names none. -/
def Operand.named? (o : Operand) : Option String := o.variableName.filter (· ≠ "")

inductive Condition where
  | logic (junction : Junction) (conditions : List Condition)
  | hasActor (actor : String) (negate : Bool)
  | actorInConversation (actor : String) (negate : Bool)
  | compareVariable (name : String) (comparison : Comparison) (operand : Operand)
  | compareParameter (actor name : String) (comparison : Comparison) (operand : Operand)
  | actorCommand (actor command : String) (negate : Bool)
  | gameCommand (command : String) (negate : Bool)
  | trigger (name : String) (mode : TriggerMode)

end Dialogue
