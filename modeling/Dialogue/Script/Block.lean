import Dialogue.Script.Action

/-! Nested lists of actions. Whatever is made of a block is made of its actions, once the lists within them have
    been dealt with (`Block.fold`). -/

namespace Dialogue

/-- A list of actions with all lists within it. -/
structure Block where
  actions : List (Action Block)

namespace Block
variable {α : Type}

mutual

/-- Makes a value of a block out of the values made of the blocks within it. -/
def fold (f : List (Action α) → α) : Block → α
  | ⟨actions⟩ => f (foldActions f actions)

def foldActions (f : List (Action α) → α) : List (Action Block) → List (Action α)
  | [] => []
  | a :: rest => foldAction f a :: foldActions f rest

def foldAction (f : List (Action α) → α) : Action Block → Action α
  | ⟨delay, waits, waitTarget, speechOnly, kind⟩ => ⟨delay, waits, waitTarget, speechOnly, foldKind f kind⟩

def foldKind (f : List (Action α) → α) : Kind Block → Kind α
  | .cue c => .cue c
  | .ifElse cases otherwise => .ifElse (foldCases f cases) (fold f otherwise)
  | .choice answers meanwhile variableName => .choice (foldAnswers f answers) (fold f meanwhile) variableName
  | .wait condition body => .wait condition (fold f body)

def foldCases (f : List (Action α) → α) : List (Case Block) → List (Case α)
  | [] => []
  | ⟨condition, actions⟩ :: rest => ⟨condition, fold f actions⟩ :: foldCases f rest

def foldAnswers (f : List (Action α) → α) : List (Answer Block) → List (Answer α)
  | [] => []
  | ⟨text, condition, actions⟩ :: rest => ⟨text, condition, fold f actions⟩ :: foldAnswers f rest

end

variable (f : List (Action α) → α)

theorem foldCases_eq : ∀ cases : List (Case Block),
    foldCases f cases = cases.map fun c => { condition := c.condition, actions := fold f c.actions }
  | [] => by simp [foldCases]
  | _ :: rest => by simp [foldCases, foldCases_eq rest]

theorem foldAnswers_eq : ∀ answers : List (Answer Block),
    foldAnswers f answers =
      answers.map fun a => { text := a.text, condition := a.condition, actions := fold f a.actions }
  | [] => by simp [foldAnswers]
  | _ :: rest => by simp [foldAnswers, foldAnswers_eq rest]

theorem foldKind_eq (kind : Kind Block) : foldKind f kind = kind.mapLists (fold f) := by
  cases kind <;> simp [foldKind, Kind.mapLists, foldCases_eq, foldAnswers_eq]

theorem foldAction_eq (a : Action Block) : foldAction f a = a.mapLists (fold f) := by
  cases a
  simp [foldAction, foldKind_eq, Action.mapLists, Action.withKind]

theorem foldActions_eq : ∀ actions : List (Action Block),
    foldActions f actions = actions.map (Action.mapLists (fold f))
  | [] => by simp [foldActions]
  | a :: rest => by simp [foldActions, foldAction_eq, foldActions_eq rest]

/-- The fold of a block is made of its actions with the folds of the lists within them. -/
theorem fold_eq (b : Block) : fold f b = f (b.actions.map (Action.mapLists (fold f))) := by
  cases b
  rw [fold, foldActions_eq]

end Block
end Dialogue
