import Mathlib.Logic.Relation
import Dialogue.Script.Conversation
import Dialogue.Stage.Evaluation

/-! What conditions depend on. A condition mentions names of actors, variables, commands and triggers, and its answer
    depends on nothing else (`Condition.holds_congr`). So it is the same after any changes of the world that touch only
    what the condition does not mention (`Condition.holds_of_unmentioned`). -/

namespace Dialogue

/-! ### Mentions -/

/-- What a condition asks about. -/
inductive Mention where
  /-- Whether somebody answers to a name. -/
  | presence (actor : String)
  | value (name : String)
  | parameter (actor name : String)
  | actorCommand (actor command : String)
  | gameCommand (command : String)
  | trigger (name : String)
  deriving DecidableEq

namespace Mention

/-- The name by which an actor is asked for. -/
def actor? : Mention → Option String
  | .presence actor | .parameter actor _ | .actorCommand actor _ => some actor
  | .value _ | .gameCommand _ | .trigger _ => none

/-- In both worlds there is the same to be found. -/
def Agrees (w v : World) : Mention → Prop
  | .presence actor => (v.actorIndex? actor).isSome = (w.actorIndex? actor).isSome
  | .value name => v.value name = w.value name
  | .parameter actor name => v.parameter? actor name = w.parameter? actor name
  | .actorCommand actor command => v.actorCommand? actor command = w.actorCommand? actor command
  | .gameCommand command => v.gameCommands.get? command = w.gameCommands.get? command
  | .trigger name => v.trigger name = w.trigger name

end Mention

/-- An operand asks for a variable if it names one; an empty name names none. -/
def Operand.mentions (o : Operand) : List Mention := o.named?.toList.map .value

namespace Condition

mutual

def mentions : Condition → List Mention
  | .logic _ conditions => allMentions conditions
  | .hasActor actor _ | .actorInConversation actor _ => [.presence actor]
  | .compareVariable name _ operand => .value name :: operand.mentions
  | .compareParameter actor name _ operand => .parameter actor name :: operand.mentions
  | .actorCommand actor command _ => [.actorCommand actor command]
  | .gameCommand command _ => [.gameCommand command]
  | .trigger name _ => [.trigger name]

def allMentions : List Condition → List Mention
  | [] => []
  | c :: rest => mentions c ++ allMentions rest

end

end Condition

theorem World.operand_congr {w v : World} {o : Operand} (h : ∀ m ∈ o.mentions, m.Agrees w v) :
    v.operand o = w.operand o := by
  unfold World.operand
  cases hname : o.named? with
  | none => rfl
  | some name =>
    have hmem : Mention.value name ∈ o.mentions := by simp [Operand.mentions, hname]
    exact h _ hmem

namespace Condition
variable {w v : World}

mutual

/-- Worlds in which the same is to be found give the same answer. -/
theorem holds_congr : ∀ {c : Condition}, (∀ m ∈ c.mentions, m.Agrees w v) → c.holds v = c.holds w
  | .logic junction conditions, h => by
    obtain ⟨hany, hall⟩ := anyHolds_allHold_congr h
    cases junction <;> simp only [holds, hany, hall]
  | .hasActor actor negate, h | .actorInConversation actor negate, h => by
    have hthere : (v.actorIndex? actor).isSome = (w.actorIndex? actor).isSome := h (.presence actor) (by simp [mentions])
    rw [holds, holds, hthere]
  | .compareVariable name comparison operand, h => by
    have hvalue : v.value name = w.value name := h (.value name) (by simp [mentions])
    rw [holds, holds, hvalue, World.operand_congr fun m hm => h m (by simp [mentions, hm])]
  | .compareParameter actor name comparison operand, h => by
    have hvalue : v.parameter? actor name = w.parameter? actor name := h (.parameter actor name) (by simp [mentions])
    rw [holds, holds, hvalue, World.operand_congr fun m hm => h m (by simp [mentions, hm])]
  | .actorCommand actor command negate, h => by
    have hcommand : v.actorCommand? actor command = w.actorCommand? actor command :=
      h (.actorCommand actor command) (by simp [mentions])
    rw [holds, holds, hcommand]
  | .gameCommand command negate, h => by
    have hcommand : v.gameCommands.get? command = w.gameCommands.get? command :=
      h (.gameCommand command) (by simp [mentions])
    rw [holds, holds, hcommand]
  | .trigger name mode, h => by
    have htrigger : v.trigger name = w.trigger name := h (.trigger name) (by simp [mentions])
    rw [holds, holds, htrigger]

theorem anyHolds_allHold_congr : ∀ {conditions : List Condition}, (∀ m ∈ allMentions conditions, m.Agrees w v) →
    anyHolds v conditions = anyHolds w conditions ∧ allHold v conditions = allHold w conditions
  | [], _ => ⟨rfl, rfl⟩
  | c :: rest, h => by
    have hfirst : c.holds v = c.holds w := holds_congr fun m hm => h m (List.mem_append_left _ hm)
    obtain ⟨hany, hall⟩ := anyHolds_allHold_congr fun m hm => h m (List.mem_append_right c.mentions hm)
    exact ⟨by rw [anyHolds, anyHolds, hfirst, hany], by rw [allHold, allHold, hfirst, hall]⟩

end

end Condition

/-! ### Changes of the world -/

/-- An actor answers to none of the names that are asked for. -/
def Actor.IsUnmentioned (ms : List Mention) (a : Actor) : Prop :=
  ∀ m ∈ ms, ∀ name ∈ m.actor?, a.answersTo name = false

instance {ms : List Mention} {a : Actor} : Decidable (a.IsUnmentioned ms) :=
  inferInstanceAs (Decidable (∀ m ∈ ms, ∀ name ∈ m.actor?, _))

namespace World
variable {w v : World} {ms : List Mention} {name other : String}

/-- Changes of the world that touch only what is not mentioned. A parameter or a command of an actor may be asked of
    others by the same name, and the actor may be asked for others of its own. -/
inductive Unmentioned (ms : List Mention) (w : World) : World → Prop where
  | setVariable {name : String} (value : Int32) (h : .value name ∉ ms) : Unmentioned ms w (w.setVariable name value)
  | setGameCommand {command : String} (value : Bool) (h : .gameCommand command ∉ ms) :
      Unmentioned ms w (w.setGameCommand command value)
  | apply {name : String} (action : TriggerAction) (h : .trigger name ∉ ms) : Unmentioned ms w (w.apply name action)
  /-- A parameter is set, or forgotten. -/
  | changeParameter {actor name : String} {f : Table Int32 → Table Int32}
      (hf : ∀ t other, other ≠ name → (f t).get? other = t.get? other)
      (h : ∀ other, .parameter other name ∈ ms → ∀ i, w.actorIndex? actor = some i → w.actorIndex? other ≠ some i) :
      Unmentioned ms w (w.changeActor actor fun a => { a with parameters := f a.parameters })
  | changeCommand {actor command : String} {f : Table Bool → Table Bool}
      (hf : ∀ t other, other ≠ command → (f t).get? other = t.get? other)
      (h : ∀ other, .actorCommand other command ∈ ms → ∀ i, w.actorIndex? actor = some i → w.actorIndex? other ≠ some i) :
      Unmentioned ms w (w.changeActor actor fun a => { a with commands := f a.commands })
  | setWaiting (actor : String) (value : Bool) : Unmentioned ms w (w.setWaiting actor value)
  | addActor {a : Actor} (h : a.IsUnmentioned ms) : Unmentioned ms w (w.addActor a)
  | removeActor {name : String} (h : ∀ a, w.actor? name = some a → a.IsUnmentioned ms) :
      Unmentioned ms w (w.removeActor name)

/-! ### Looking up actors -/

theorem isSome_actorIndex? : (w.actorIndex? name).isSome = (w.actor? name).isSome := by
  rw [Bool.eq_iff_iff, actorIndex?, actor?, List.findIdx?_isSome, List.find?_isSome, List.any_eq_true]

/-- A changed actor is found by the same names as before. -/
theorem find?_changeFirst {f : Actor → Actor} (hf : ∀ a, (f a).answersTo = a.answersTo) : ∀ actors : List Actor,
    (changeFirst name f actors).find? (·.answersTo other) =
      if actors.findIdx? (·.answersTo name) = actors.findIdx? (·.answersTo other) then
        (actors.find? (·.answersTo other)).map f
      else actors.find? (·.answersTo other)
  | [] => rfl
  | a :: rest => by
    have ih := find?_changeFirst hf rest
    rw [changeFirst, List.findIdx?_cons, List.findIdx?_cons]
    cases hname : a.answersTo name <;> cases hother : a.answersTo other
    case false.false => simpa [hother, Option.map_inj_right] using ih
    case false.true => simp [hother]
    case true.false =>
      have hlater : some 0 ≠ (rest.findIdx? (·.answersTo other)).map (· + 1) := by
        cases rest.findIdx? (·.answersTo other) <;> simp
      simp [hf, hother, hlater]
    case true.true => simp [hf, hother]

theorem actor?_changeActor {f : Actor → Actor} (hf : ∀ a, (f a).answersTo = a.answersTo) :
    (w.changeActor name f).actor? other =
      if w.actorIndex? name = w.actorIndex? other then (w.actor? other).map f else w.actor? other :=
  find?_changeFirst hf w.actors

/-- An actor that is removed was not found by other names. -/
theorem find?_eraseP {p q : Actor → Bool} : ∀ {actors : List Actor},
    (∀ a, actors.find? p = some a → q a = false) → (actors.eraseP p).find? q = actors.find? q
  | [], _ => rfl
  | a :: rest, h => by
    cases hp : p a with
    | true => rw [List.eraseP_cons_of_pos hp, List.find?_cons_of_neg (by simp [h a (List.find?_cons_of_pos hp)])]
    | false =>
      have hnot : ¬p a = true := by simp [hp]
      rw [List.eraseP_cons_of_neg hnot, List.find?_cons, List.find?_cons,
        find?_eraseP fun b hb => h b (by rw [List.find?_cons_of_neg hnot, hb])]

/-- Mentions agree if all actors that they ask for are the same, and so is everything else. -/
theorem agrees_of_actors (hvalues : v.values = w.values) (hcommands : v.gameCommands = w.gameCommands)
    (htriggers : v.triggers = w.triggers) {m : Mention} (h : ∀ name, m.actor? = some name → v.actor? name = w.actor? name) :
    m.Agrees w v := by
  cases m with
  | presence actor =>
    have hactor : v.actor? actor = w.actor? actor := h actor rfl
    rw [Mention.Agrees, isSome_actorIndex?, isSome_actorIndex?, hactor]
  | value name => simp only [Mention.Agrees, value, hvalues]
  | parameter actor name =>
    have hactor : v.actor? actor = w.actor? actor := h actor rfl
    rw [Mention.Agrees, parameter?, parameter?, hactor]
  | actorCommand actor command =>
    have hactor : v.actor? actor = w.actor? actor := h actor rfl
    rw [Mention.Agrees, actorCommand?, actorCommand?, hactor]
  | gameCommand command => simp only [Mention.Agrees, hcommands]
  | trigger name => simp only [Mention.Agrees, trigger, htriggers]

/-- An actor whose names stay is changed, but nothing that is asked of the actor. -/
theorem agrees_changeActor {actor : String} {f : Actor → Actor} {m : Mention} (hf : ∀ a, (f a).answersTo = a.answersTo)
    (hparameter : ∀ other name, m = .parameter other name → ∀ i, w.actorIndex? actor = some i →
      w.actorIndex? other = some i → ∀ a, (f a).parameters.get? name = a.parameters.get? name)
    (hcommand : ∀ other command, m = .actorCommand other command → ∀ i, w.actorIndex? actor = some i →
      w.actorIndex? other = some i → ∀ a, (f a).commands.get? command = a.commands.get? command) :
    m.Agrees w (w.changeActor actor f) := by
  -- An actor who is found is found in a slot.
  have hslot : ∀ other a, w.actor? other = some a → w.actorIndex? actor = w.actorIndex? other →
      ∃ i, w.actorIndex? actor = some i ∧ w.actorIndex? other = some i := by
    intro other a ha hsame
    have hthere : (w.actorIndex? other).isSome := by rw [isSome_actorIndex?, ha, Option.isSome_some]
    obtain ⟨i, hi⟩ := Option.isSome_iff_exists.mp hthere
    exact ⟨i, hsame.trans hi, hi⟩
  cases m with
  | presence other =>
    rw [Mention.Agrees, isSome_actorIndex?, isSome_actorIndex?, actor?_changeActor hf]
    split
    · rw [Option.isSome_map]
    · rfl
  | parameter other name =>
    rw [Mention.Agrees, parameter?, parameter?, actor?_changeActor hf]
    split
    · rename_i hsame
      cases ha : w.actor? other with
      | none => rfl
      | some a =>
        obtain ⟨i, hi, hi'⟩ := hslot other a ha hsame
        exact hparameter other name rfl i hi hi' a
    · rfl
  | actorCommand other command =>
    rw [Mention.Agrees, actorCommand?, actorCommand?, actor?_changeActor hf]
    split
    · rename_i hsame
      cases ha : w.actor? other with
      | none => rfl
      | some a =>
        obtain ⟨i, hi, hi'⟩ := hslot other a ha hsame
        exact hcommand other command rfl i hi hi' a
    · rfl
  | value | gameCommand | trigger => rfl

/-- What is mentioned is the same after a change that touches something else. -/
theorem Unmentioned.agrees (h : Unmentioned ms w v) {m : Mention} (hm : m ∈ ms) : m.Agrees w v := by
  cases h with
  | @setVariable name x hname =>
    cases m with
    | value other =>
      have hne : other ≠ name := fun heq => hname (heq ▸ hm)
      simp only [Mention.Agrees, World.value, World.setVariable, Table.get?_insert_of_ne _ _ hne]
    | presence | parameter | actorCommand | gameCommand | trigger => rfl
  | @setGameCommand command x hcommand =>
    cases m with
    | gameCommand other =>
      have hne : other ≠ command := fun heq => hcommand (heq ▸ hm)
      simp only [Mention.Agrees, World.setGameCommand, Table.get?_insert_of_ne _ _ hne]
    | presence | parameter | actorCommand | value | trigger => rfl
  | @apply name action hname =>
    cases m with
    | trigger other =>
      have hne : other ≠ name := fun heq => hname (heq ▸ hm)
      simp only [Mention.Agrees, World.trigger, World.apply, Table.get?_insert_of_ne _ _ hne]
    | presence | parameter | actorCommand | value | gameCommand => rfl
  | @changeParameter actor name f hf hname =>
    refine agrees_changeActor (fun _ => rfl) (fun other asked hasks i hi hi' a => ?_) fun _ _ _ _ _ _ _ => rfl
    exact hf _ _ fun heq => hname other (heq ▸ hasks ▸ hm) i hi hi'
  | @changeCommand actor command f hf hcommand =>
    refine agrees_changeActor (fun _ => rfl) (fun _ _ _ _ _ _ _ => rfl) fun other asked hasks i hi hi' a => ?_
    exact hf _ _ fun heq => hcommand other (heq ▸ hasks ▸ hm) i hi hi'
  | setWaiting actor x =>
    exact agrees_changeActor (f := fun a => { a with waiting := x }) (fun _ => rfl) (fun _ _ _ _ _ _ _ => rfl)
      fun _ _ _ _ _ _ _ => rfl
  | @addActor a ha =>
    refine agrees_of_actors (w := w) (v := w.addActor a) rfl rfl rfl fun name hname => ?_
    simp only [actor?, World.addActor, List.find?_append, List.find?_singleton, ha m hm name hname, Bool.false_eq_true,
      ↓reduceIte, Option.or_none]
  | @removeActor removed ha =>
    refine agrees_of_actors (w := w) (v := w.removeActor removed) rfl rfl rfl fun name hname => ?_
    exact find?_eraseP fun a hfound => ha a hfound m hm name hname

end World

/-- A condition has the same answer after any number of changes of the world that touch only what it does not mention:
    variables, game commands and triggers, parameters and commands of actors that it does not ask them for, and actors
    coming and going that do not answer to a name in it, whoever else may share their names. -/
theorem Condition.holds_of_unmentioned {c : Condition} {w v : World}
    (h : Relation.ReflTransGen (World.Unmentioned c.mentions) w v) : c.holds v = c.holds w := by
  induction h with
  | refl => rfl
  | tail _ hchange ih => exact (holds_congr fun m hm => hchange.agrees hm).trans ih

/-- Somebody called Ann is in the mood, Eva is not there, and the gong has been heard. -/
def Condition.welcome : Condition :=
  .logic .all [
    .compareParameter "ann" "mood" .ge ⟨0, some "limit"⟩,
    .logic .none [.hasActor "eva" false, .gameCommand "close" false],
    .trigger "gong" .everFired]

/-- Two actors answer to the name of Ann. -/
def World.square : World where
  actors := [
    { id := "ann", alias? := some "guide", parameters := .ofList [("mood", 4)], commands := .empty },
    { id := "ben", alias? := some "ann", parameters := .ofList [("mood", 1)], commands := .empty }]
  values := .ofList [("limit", 3)]
  triggers := .ofList [("gong", { hasFired := true })]

def Actor.carl : Actor where
  id := "carl"
  alias? := some "ben"
  parameters := .empty
  commands := .empty

/-- The second Ann has lost the mood, the first one has got older, and somebody has come and gone under the name of the
    second. -/
def World.evening : World :=
  (((World.square.setParameter "ben" "mood" 0).setParameter "guide" "age" 7).addActor .carl).removeActor "carl"

theorem holds_of_unmentioned_square :
    Relation.ReflTransGen (World.Unmentioned Condition.welcome.mentions) .square .evening ∧
      Condition.welcome.holds .square = true ∧ Condition.welcome.holds .evening = true := by
  have hasked : Condition.welcome.mentions =
      [.parameter "ann" "mood", .value "limit", .presence "eva", .gameCommand "close", .trigger "gong"] := rfl
  have hset (name : String) (value : Int32) (t : Table Int32) (other : String) (hne : other ≠ name) :
      (t.insert name value).get? other = t.get? other := Table.get?_insert_of_ne t value hne
  have hben : World.Unmentioned Condition.welcome.mentions .square (World.square.setParameter "ben" "mood" 0) := by
    refine .changeParameter (hset "mood" 0) fun other hother i hi hi' => ?_
    obtain rfl : other = "ann" := by simpa [hasked] using hother
    cases hi
    cases hi'
  have hann (w : World) : World.Unmentioned Condition.welcome.mentions w (w.setParameter "guide" "age" 7) :=
    .changeParameter (hset "age" 7) (by simp [hasked])
  have hcarl : Actor.carl.IsUnmentioned Condition.welcome.mentions := by decide
  have hgoes : World.Unmentioned Condition.welcome.mentions _ .evening :=
    .removeActor fun a ha => Option.some.inj ha ▸ hcarl
  have hchanged : Relation.ReflTransGen (World.Unmentioned Condition.welcome.mentions) .square .evening :=
    .tail (.tail (.tail (.single hben) (hann _)) (.addActor hcarl)) hgoes
  have hbefore : Condition.welcome.holds .square = true := by decide
  exact ⟨hchanged, hbefore, (Condition.holds_of_unmentioned hchanged).trans hbefore⟩

end Dialogue
