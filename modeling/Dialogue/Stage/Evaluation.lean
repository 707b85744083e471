import Dialogue.Stage.World

/-! Whether a condition holds in a world. What is unknown counts as zero or as not so, and every condition has an
    answer. -/

namespace Dialogue

/-- The number that is compared with; the value of a variable if one is named. -/
def World.operand (w : World) (o : Operand) : Int32 :=
  match o.named? with
  | some name => w.value name
  | none => o.value

def TriggerMode.holds : TriggerMode → Trigger → Bool
  | .fired, t => t.fired
  | .notFired, t => !t.fired
  | .everFired, t => t.hasFired
  | .neverFired, t => !t.hasFired

namespace Condition

mutual

def holds (w : World) : Condition → Bool
  | .logic .none conditions => !anyHolds w conditions
  | .logic .any conditions => anyHolds w conditions
  | .logic .all conditions => !conditions.isEmpty && allHold w conditions
  | .hasActor actor negate => (w.actorIndex? actor).isSome != negate
  | .actorInConversation actor negate => (w.actorIndex? actor).isSome != negate
  | .compareVariable name comparison operand => comparison.holds (w.value name) (w.operand operand)
  | .compareParameter actor name comparison operand =>
    comparison.holds ((w.parameter? actor name).getD 0) (w.operand operand)
  | .actorCommand actor command negate => (w.actorCommand? actor command).getD false != negate
  | .gameCommand command negate => (w.gameCommands.get? command).getD false != negate
  | .trigger name mode => mode.holds (w.trigger name)

def anyHolds (w : World) : List Condition → Bool
  | [] => false
  | c :: rest => holds w c || anyHolds w rest

def allHold (w : World) : List Condition → Bool
  | [] => true
  | c :: rest => holds w c && allHold w rest

end

theorem anyHolds_eq (w : World) : ∀ conditions, anyHolds w conditions = conditions.any (holds w)
  | [] => rfl
  | _ :: rest => by rw [anyHolds, anyHolds_eq w rest, List.any_cons]

theorem allHold_eq (w : World) : ∀ conditions, allHold w conditions = conditions.all (holds w)
  | [] => rfl
  | _ :: rest => by rw [allHold, allHold_eq w rest, List.all_cons]

end Condition
end Dialogue
