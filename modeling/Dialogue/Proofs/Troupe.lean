import Dialogue.Proofs.Acts
import Dialogue.Proofs.Beats

/-! Actors and what they are saying. A session keeps the actors and their slots in two lists, which are read here as one
    list of pairs (`Session.troupe`). There is one slot for each actor at all times, and every request changes the pairs
    as it should: an actor goes with the slot, comes with an idle one, and no line gets to another actor
    (`one_slot_per_actor`). -/

namespace Dialogue

/-- Actors, each with what the actor is saying. -/
abbrev Troupe := List (Actor × Speech)

/-- What an actor answers to. -/
def Actor.role (a : Actor) : String × Option String := (a.id, a.alias?)

namespace Troupe
variable {troupe troupe' troupe'' : Troupe} {actors : List Actor} {slots : List Speech} {name : String} {i : Nat}

/-- Nobody says anything. -/
def hushed (troupe : Troupe) : Troupe := troupe.map fun member => (member.1, ({} : Speech))

/-- Everybody has gone on speaking for some time. -/
def after (troupe : Troupe) (e : Seconds) : Troupe := troupe.map fun member => (member.1, member.2.after e)

/-- The first actor who answers to a name leaves, with what the actor is saying. -/
def leave (troupe : Troupe) (name : String) : Troupe := troupe.eraseP fun member => member.1.answersTo name

/-- An actor comes, who says nothing. -/
def join (troupe : Troupe) (a : Actor) : Troupe := troupe ++ [(a, ({} : Speech))]

/-- The first actor who answers to a name says a line. -/
def say (name : String) (line : Speech) : Troupe → Troupe
  | [] => []
  | (a, speech) :: rest => if a.answersTo name then (a, line) :: rest else (a, speech) :: say name line rest

/-- The same actors as before, or actors who answer to the same, are saying the same. -/
def SameRoles (troupe troupe' : Troupe) : Prop :=
  troupe'.map (Prod.map Actor.role id) = troupe.map (Prod.map Actor.role id)

/-- What an action makes of a troupe. -/
def Does (troupe troupe' : Troupe) : Kind ListId → Prop
  | .cue (.removeActor name) => troupe' = troupe.leave name
  | .cue (.addActor id alias?) =>
    troupe' = if troupe.any (·.1.answersTo id) then troupe
      else troupe.join { id, alias?, parameters := .empty, commands := .empty }
  | .cue (.speak actor text minTime words) =>
    troupe' = if 0 < Session.speechLength minTime words
      then troupe.say actor (.saying (Session.speechLength minTime words) text) else troupe
  | .cue (.setParameter _ _ _) => troupe.SameRoles troupe'
  | _ => troupe' = troupe

/-- What actions make of a troupe one after the other. -/
inductive Performs : List (Kind ListId) → Troupe → Troupe → Prop where
  | nil {troupe : Troupe} : Performs [] troupe troupe
  | cons {kind : Kind ListId} {kinds : List (Kind ListId)} {troupe troupe' troupe'' : Troupe}
      (h : troupe.Does troupe' kind) (hrest : Performs kinds troupe' troupe'') : Performs (kind :: kinds) troupe troupe''

theorem Performs.append {kinds kinds' : List (Kind ListId)} (h : Performs kinds troupe troupe')
    (h' : Performs kinds' troupe' troupe'') : Performs (kinds ++ kinds') troupe troupe'' := by
  induction h with
  | nil => exact h'
  | cons h _ ih => exact .cons h (ih h')

theorem any_zip (h : slots.length = actors.length) :
    (actors.zip slots).any (·.1.answersTo name) = actors.any (·.answersTo name) := by
  conv_rhs => rw [← List.map_fst_zip (Nat.le_of_eq h.symm), List.any_map]
  rfl

theorem zip_eraseIdx (h : slots.length = actors.length) (hi : actors.findIdx? (·.answersTo name) = some i) :
    (actors.eraseP (·.answersTo name)).zip (slots.eraseIdx i) = leave (actors.zip slots) name := by
  induction actors generalizing slots i with
  | nil => cases hi
  | cons a actors ih =>
    obtain ⟨speech, slots, rfl⟩ := List.exists_cons_of_length_eq_add_one h
    rw [List.findIdx?_cons] at hi
    cases ha : a.answersTo name with
    | true =>
      obtain rfl : 0 = i := by simpa [ha] using hi
      simp [leave, ha]
    | false =>
      simp only [ha, Bool.false_eq_true, ↓reduceIte] at hi
      obtain ⟨j, hj, rfl⟩ := Option.map_eq_some_iff.mp hi
      have hrest := ih (Nat.succ.inj h) hj
      rw [leave] at hrest ⊢
      simp [ha, hrest]

theorem zip_modify {line : Speech} (h : slots.length = actors.length)
    (hi : actors.findIdx? (·.answersTo name) = some i) :
    actors.zip (slots.modify i fun _ => line) = say name line (actors.zip slots) := by
  induction actors generalizing slots i with
  | nil => cases hi
  | cons a actors ih =>
    obtain ⟨speech, slots, rfl⟩ := List.exists_cons_of_length_eq_add_one h
    rw [List.findIdx?_cons] at hi
    cases ha : a.answersTo name with
    | true =>
      obtain rfl : 0 = i := by simpa [ha] using hi
      simp [say, ha]
    | false =>
      simp only [ha, Bool.false_eq_true, ↓reduceIte] at hi
      obtain ⟨j, hj, rfl⟩ := Option.map_eq_some_iff.mp hi
      simp [say, ha, ih (Nat.succ.inj h) hj]

theorem sameRoles_zip {actors' : List Actor} (h : actors'.map Actor.role = actors.map Actor.role) :
    SameRoles (actors.zip slots) (actors'.zip slots) := by
  rw [SameRoles, ← List.zip_map_left, ← List.zip_map_left, h]

/-- Where nobody answers to a name, nobody leaves. -/
theorem leave_of_none (h : ∀ member ∈ troupe, member.1.answersTo name = false) : troupe.leave name = troupe :=
  List.eraseP_of_forall_not fun member hmember => by simp [h member hmember]

/-- Where nobody answers to a name, nobody says the line. -/
theorem say_of_none {line : Speech} (h : ∀ member ∈ troupe, member.1.answersTo name = false) :
    troupe.say name line = troupe := by
  induction troupe with
  | nil => rfl
  | cons member rest ih =>
    obtain ⟨a, speech⟩ := member
    obtain ⟨ha, hrest⟩ := List.forall_mem_cons.mp h
    simp only at ha
    rw [say, ha, if_neg Bool.false_ne_true, ih hrest]

end Troupe

namespace World
variable {w : World} {name : String}

theorem map_changeFirst {f : Actor → Actor} (hf : ∀ a, (f a).role = a.role) (actors : List Actor) :
    (changeFirst name f actors).map Actor.role = actors.map Actor.role := by
  induction actors with
  | nil => rfl
  | cons a rest ih =>
    rw [changeFirst]
    split <;> simp [hf, ih]

/-- Apart from adding and removing actors, what a host does to the world leaves the actors in their roles. -/
theorem map_step {op : Op} (hadd : ∀ a, op ≠ .addActor a) (hremove : ∀ name, op ≠ .removeActor name) :
    (w.step op).actors.map Actor.role = w.actors.map Actor.role := by
  cases op with
  | addActor a => exact absurd rfl (hadd a)
  | removeActor name => exact absurd rfl (hremove name)
  | setWaiting name value => exact map_changeFirst (f := fun a => { a with waiting := value }) (fun _ => rfl) _
  | setActorCommand name command value =>
    exact map_changeFirst (f := fun a => { a with commands := a.commands.insert command value }) (fun _ => rfl) _
  | setVariable | setGameCommand | trigger => rfl

end World

namespace Session
variable {c : Conversation} {r s t u : Session} {id : LaneId} {e : Seconds} {l : Lane} {ref : ActionRef}
variable {a : Action ListId} {name : String} {start : Session → Lane → Option Session} {request : Request}

/-- The actors with what is in their slots. -/
def troupe (s : Session) : Troupe := s.world.actors.zip s.slots

/-- The interpreter does what actions say, and there is one slot for each actor. -/
structure Staffed (s : Session) : Prop where
  scripted : ∃ chance, s.interpreter = .scripted chance
  slots : s.slots.length = s.world.actors.length

/-- The actors and their slots stay as they are, and there still is an interpreter that does what actions say. -/
structure Retains (s t : Session) : Prop where
  scripted : (∃ chance, s.interpreter = .scripted chance) → ∃ chance, t.interpreter = .scripted chance
  actors : t.world.actors = s.world.actors
  slots : t.slots = s.slots

theorem Alike.retains (h : Alike s t) : Retains s t :=
  ⟨fun hscripted => h.interpreter ▸ hscripted, congrArg World.actors h.world, h.slots⟩

namespace Retains

theorem refl (s : Session) : Retains s s := ⟨fun h => h, rfl, rfl⟩

theorem trans (h : Retains s t) (h' : Retains t u) : Retains s u :=
  ⟨h'.scripted ∘ h.scripted, h'.actors.trans h.actors, h'.slots.trans h.slots⟩

theorem advance (id : LaneId) : Retains s (s.advance id) := Alike.advance.retains

theorem goOn (h : Retains s t) : Retains s (t.advance id) := h.trans (advance id)

theorem troupe (h : Retains s t) : t.troupe = s.troupe := by rw [Session.troupe, Session.troupe, h.actors, h.slots]

theorem staffed (h : Retains s t) (hs : s.Staffed) : t.Staffed :=
  ⟨h.scripted hs.scripted, by rw [h.slots, h.actors, hs.slots]⟩

theorem announce (id : LaneId) (info : String) : Retains s (s.announce id info) := (Alike.announce info).retains

theorem setVariable (chance : Chance) (name : String) (change : Change) :
    Retains s (s.setVariable chance name change) := by
  unfold Session.setVariable
  split
  · exact refl s
  · exact ⟨fun _ => ⟨_, rfl⟩, rfl, rfl⟩

end Retains

namespace Staffed

/-- Nothing else happens to the actors and their slots. -/
theorem keeps (hs : s.Staffed) (h : Retains s t) : t.Staffed ∧ t.troupe = s.troupe := ⟨h.staffed hs, h.troupe⟩

theorem syncSlots (hs : s.Staffed) : s.syncSlots = s := by
  have hslots : s.slots.take s.world.actors.length = s.slots := List.take_of_length_le (Nat.le_of_eq hs.slots)
  rw [Session.syncSlots, hslots, hs.slots, Nat.sub_self, List.replicate_zero, List.append_nil]

theorem changeSpeech (hs : s.Staffed) (slot : Nat) (f : Speech → Speech) :
    (s.changeSpeech slot f).Staffed ∧
      (s.changeSpeech slot f).troupe = s.troupe.modify slot fun member => (member.1, f member.2) := by
  rw [Session.changeSpeech, hs.syncSlots]
  refine ⟨⟨hs.scripted, by simp [hs.slots]⟩, List.ext_getElem? fun i => ?_⟩
  simp only [troupe, List.zip_eq_zipWith, List.getElem?_modify, List.getElem?_zipWith]
  by_cases hi : slot = i <;> cases s.world.actors[i]? <;> cases s.slots[i]? <;> simp [hi]

theorem addActor (hs : s.Staffed) (actor : Actor) :
    (s.addActor actor).Staffed ∧ (s.addActor actor).troupe = s.troupe.join actor := by
  rw [Session.addActor, hs.syncSlots]
  refine ⟨⟨hs.scripted, by simp [World.addActor, hs.slots]⟩, ?_⟩
  exact List.zip_append hs.slots.symm

theorem nobody (h : s.world.actorIndex? name = none) : ∀ member ∈ s.troupe, member.1.answersTo name = false :=
  fun member hmember => List.findIdx?_eq_none_iff.mp h member.1 (List.of_mem_zip hmember).1

theorem removeActor (hs : s.Staffed) (name : String) :
    (s.removeActor name).Staffed ∧ (s.removeActor name).troupe = s.troupe.leave name := by
  rw [Session.removeActor, hs.syncSlots]
  cases hindex : s.world.actorIndex? name with
  | none =>
    exact ⟨hs, (Troupe.leave_of_none (nobody hindex)).symm⟩
  | some index =>
    refine ⟨⟨hs.scripted, ?_⟩, Troupe.zip_eraseIdx hs.slots hindex⟩
    have hgone : s.world.actors.eraseP (·.answersTo name) = s.world.actors.eraseIdx index := by
      rw [List.eraseP_eq_eraseIdx, show s.world.actors.findIdx? (·.answersTo name) = some index from hindex]
    simp [record, World.removeActor, hgone, List.length_eraseIdx, hs.slots]

theorem rewind (hs : s.Staffed) : s.rewind.Staffed ∧ s.rewind.troupe = s.troupe.hushed := by
  obtain ⟨r, hr, hinterpreter, hworld, hslots⟩ : ∃ r : Session, s.rewind = r.advance .main ∧
      r.interpreter = s.interpreter ∧ r.world = s.world ∧ r.slots = s.syncSlots.slots.map fun _ => {} :=
    ⟨_, rfl, rfl, rfl, rfl⟩
  rw [hs.syncSlots] at hslots
  have hretains : Retains r (r.advance .main) := .advance .main
  have hr' : r.Staffed := ⟨hinterpreter ▸ hs.scripted, by rw [hslots, hworld, List.length_map, hs.slots]⟩
  rw [hr]
  refine ⟨hretains.staffed hr', hretains.troupe.trans ?_⟩
  rw [Session.troupe, hslots, hworld, List.zip_map_right]
  rfl

theorem aged (hs : s.Staffed) (e : Seconds) : (s.aged e).Staffed ∧ (s.aged e).troupe = s.troupe.after e := by
  rw [Session.aged, hs.syncSlots]
  exact ⟨⟨hs.scripted, by simp [hs.slots]⟩, List.zip_map_right⟩

/-- An actor who answers to a name says a line, unless it takes no time. -/
theorem speak {slot : Nat} (hs : s.Staffed) (hslot : s.world.actorIndex? name = some slot) (length : Seconds)
    (text : Option String) :
    (s.speak slot length text).Staffed ∧ (s.speak slot length text).troupe =
      if 0 < length then s.troupe.say name (.saying length text) else s.troupe := by
  unfold Session.speak
  split
  · refine ⟨(hs.changeSpeech slot _).1, ?_⟩
    rw [Session.changeSpeech, hs.syncSlots]
    exact Troupe.zip_modify hs.slots hslot
  · exact ⟨hs, rfl⟩

/-- An actor comes unless somebody answers to the name. -/
theorem addMissing (hs : s.Staffed) (name : String) (actor : Actor) :
    let t := if (s.world.actor? name).isSome then s else s.addActor actor
    t.Staffed ∧ t.troupe = if s.troupe.any (·.1.answersTo name) then s.troupe else s.troupe.join actor := by
  have hthere : s.troupe.any (·.1.answersTo name) = (s.world.actor? name).isSome := by
    rw [troupe, Troupe.any_zip hs.slots, World.actor?, List.isSome_find?]
  rw [hthere]
  simp only
  split
  · exact ⟨hs, rfl⟩
  · exact hs.addActor actor

/-- The actors may change in whatever way, as long as they answer to the same. -/
theorem of_roles (hs : s.Staffed) (hscripted : ∃ chance, t.interpreter = .scripted chance) (hslots : t.slots = s.slots)
    (hroles : t.world.actors.map Actor.role = s.world.actors.map Actor.role) :
    t.Staffed ∧ s.troupe.SameRoles t.troupe := by
  have hlength := congrArg List.length hroles
  rw [List.length_map, List.length_map] at hlength
  refine ⟨⟨hscripted, by rw [hslots, hs.slots, hlength]⟩, ?_⟩
  rw [troupe, troupe, hslots]
  exact Troupe.sameRoles_zip hroles

theorem setParameter (hs : s.Staffed) (chance : Chance) (actor name : String) (change : Change) :
    (s.setParameter chance actor name change).Staffed ∧
      s.troupe.SameRoles (s.setParameter chance actor name change).troupe := by
  unfold Session.setParameter
  split
  · exact ⟨hs, rfl⟩
  · let result := change.operator.apply ((s.world.parameter? actor name).getD 0) (s.world.given change.operand) chance
    let put (a : Actor) : Actor := { a with parameters := a.parameters.insert name result.1 }
    exact hs.of_roles ⟨result.2, rfl⟩ rfl (World.map_changeFirst (f := put) (fun _ => rfl) _)

end Staffed

theorem perform_does {chance : Chance} {cue : Cue} (hs : s.Staffed) (hchance : s.interpreter = .scripted chance)
    (hside : s.sideTopic? a = none) (hkind : a.kind = .cue cue) (h : s.perform start chance id ref cue = some t) :
    t.Staffed ∧ s.troupe.Does t.troupe (.cue cue) := by
  cases cue with
  | cameraShot | snippet | stopConversation | stopTopic | actorCommand | gameCommand | comment =>
    exact hs.keeps (perform_alike hchance hside hkind rfl h).retains
  | speak actor text minTime words =>
    cases hslot : s.world.actorIndex? actor with
    | none =>
      simp only [perform, hslot, Option.some.injEq] at h
      subst h
      have hnobody : ∀ member ∈ s.troupe, member.1.answersTo actor = false := Staffed.nobody hslot
      refine ⟨⟨hs.scripted, hs.slots⟩, ?_⟩
      rw [Troupe.Does, Troupe.say_of_none hnobody, ite_self]
      rfl
    | some slot =>
      simp only [perform, hslot, Option.some.injEq] at h
      subst h
      obtain ⟨hspeaks, htroupe⟩ := hs.speak hslot (speechLength minTime words) text
      obtain ⟨hgo, hsame⟩ := hspeaks.keeps (.advance id)
      exact ⟨hgo, hsame.trans htroupe⟩
  | setVariable name change =>
    cases h
    exact hs.keeps (Retains.setVariable chance name change).goOn
  | setParameter actor name change =>
    cases h
    obtain ⟨hset, hroles⟩ := hs.setParameter chance actor name change
    obtain ⟨hgo, hsame⟩ := hset.keeps (.advance id)
    exact ⟨hgo, hsame ▸ hroles⟩
  | trigger name action =>
    cases h
    have hset : Retains s { s with world := s.world.apply name action } := ⟨fun h => h, rfl, rfl⟩
    exact hs.keeps (hset.trans (.announce id _))
  | addActor actor alias? =>
    cases h
    obtain ⟨hset, htroupe⟩ :=
      hs.addMissing actor { id := actor, alias?, parameters := .empty, commands := .empty }
    obtain ⟨hgo, hsame⟩ := hset.keeps (.announce id (Info.addActor actor))
    exact ⟨hgo, hsame.trans htroupe⟩
  | removeActor actor =>
    cases h
    obtain ⟨hset, htroupe⟩ := hs.removeActor actor
    obtain ⟨hgo, hsame⟩ := hset.keeps (.announce id (Info.removeActor actor))
    exact ⟨hgo, hsame.trans htroupe⟩

theorem execute_does (hs : s.Staffed) (hside : s.sideTopic? a = none) (h : s.execute start id ref a = some t) :
    t.Staffed ∧ s.troupe.Does t.troupe a.kind := by
  obtain ⟨chance, hchance⟩ := hs.scripted
  cases hkind : a.kind with
  | cue cue =>
    simp only [execute, hchance, hkind] at h
    exact perform_does hs hchance hside hkind h
  | ifElse | choice | wait => exact hs.keeps (execute_alike hchance hside (by simp [hkind]) h).retains

/-! ### Passes -/

/-- The kind of action that an event tells of. -/
def kind? (s : Session) : Event → Option (Kind ListId)
  | .dispatched _ ref _ => (s.action? ref).map Action.kind
  | _ => none

theorem SameLists.kind? (h : SameLists s t) : t.kind? = s.kind? := by
  funext event
  cases event <;> simp [Session.kind?, h.action?]

theorem filterMap_kind? {log : List Event} (h : log.filterMap Event.actingLane? = []) : log.filterMap s.kind? = [] := by
  rw [List.filterMap_eq_nil_iff] at h ⊢
  intro event hevent
  have := h event hevent
  cases event <;> first | rfl | cases this

/-- From `s` to `t` the actions that the log tells of have been carried out, and nothing else has become of the troupe. -/
structure Enacts (s t : Session) : Prop where
  staffed : t.Staffed
  lists : SameLists s t
  log : ∃ log, t.events.toList = s.events.toList ++ log ∧ Troupe.Performs (log.filterMap s.kind?) s.troupe t.troupe

namespace Enacts

theorem trans (h : Enacts s t) (h' : Enacts t u) : Enacts s u where
  staffed := h'.staffed
  lists := h.lists.trans h'.lists
  log := by
    obtain ⟨log, hlog, hperforms⟩ := h.log
    obtain ⟨log', hlog', hperforms'⟩ := h'.log
    refine ⟨log ++ log', by rw [hlog', hlog, List.append_assoc], ?_⟩
    rw [List.filterMap_append]
    exact hperforms.append (h.lists.kind? ▸ hperforms')

theorem of_passive (hs : s.Staffed) (h : Passive s t) : Enacts s t where
  staffed := h.toAlike.retains.staffed hs
  lists := h.lists
  log := by
    obtain ⟨log, hlog, hnone⟩ := h.log
    exact ⟨log, hlog, by rw [filterMap_kind? hnone, h.toAlike.retains.troupe]; exact .nil⟩

theorem refl (hs : s.Staffed) : Enacts s s := .of_passive hs (.refl s)

theorem addLane (hs : s.Staffed) (l : Lane) : Enacts s (s.addLane l) := .of_passive hs (passive_addLane l)

/-- An action is noted and carried out. -/
theorem of_note {last : Option LastPlayed} (ha : s.action? ref = some a) (halters : Alters id (s.note id ref a last) t)
    (ht : t.Staffed) (hdoes : s.troupe.Does t.troupe a.kind) : Enacts s t := by
  obtain ⟨log, hlog, hnone, -⟩ := halters.log
  have hnoted : SameLists s (s.note id ref a last) := ⟨rfl, rfl, rfl⟩
  have hkind : s.kind? (.dispatched id ref a.label) = some a.kind := by rw [kind?, ha, Option.map_some]
  refine ⟨ht, hnoted.trans halters.lists, .dispatched id ref a.label :: log, ?_, ?_⟩
  · rw [hlog]
    simp [note, record]
  · rw [List.filterMap_cons, hkind, filterMap_kind? hnone]
    exact .cons hdoes .nil

/-- Passes do to the troupe what their actions do. -/
theorem actByAct : ActByAct fun s t => s.Staffed → Enacts s t where
  trans h h' hs := (h hs).trans (h' (h hs).staffed)
  passive h hs := .of_passive hs h
  acts {s t id ref a last start} ha hplain h halters hs := by
    have hnoted : (s.note id ref a last).Staffed := ⟨hs.scripted, hs.slots⟩
    obtain ⟨hdone, hdoes⟩ := execute_does hnoted hplain h
    exact .of_note ha halters hdone hdoes
  starts ha htopic hs := by
    obtain ⟨-, file, name, -, hkind, -⟩ := sideTopic?_eq_some htopic
    exact .of_note ha (Touches.refl _ _).toAlters ⟨hs.scripted, hs.slots⟩ (hkind ▸ rfl)

end Enacts

/-- In a frame, everybody goes on speaking, and then actions are carried out. -/
theorem update_enacts (hs : s.Staffed) (h : s.update e = some t) :
    t.Staffed ∧ ∃ log, t.events.toList = s.events.toList ++ log ∧
      Troupe.Performs (log.filterMap t.kind?) (if s.Plays then s.troupe.after e else s.troupe) t.troupe := by
  rw [update_eq] at h
  obtain ⟨u, hu, rfl⟩ := Option.map_eq_some_iff.mp h
  have hcamera : Retains u { u with camera := u.camera.after e } := ⟨fun h => h, rfl, rfl⟩
  by_cases hplays : s.Plays
  · rw [if_pos hplays, passes_eq] at hu
    obtain ⟨haged, htroupe⟩ := hs.aged e
    have hpasses := Enacts.actByAct.passes hu haged
    obtain ⟨log, hlog, hperforms⟩ := hpasses.log
    refine ⟨hcamera.staffed hpasses.staffed, log, hlog, ?_⟩
    rw [if_pos hplays, ← htroupe]
    exact hpasses.lists.kind? ▸ hperforms
  · rw [if_neg hplays] at hu ⊢
    cases hu
    exact ⟨hcamera.staffed hs, [], (List.append_nil _).symm, .nil⟩

/-! ### Requests -/

/-- The host does not change who the actors are behind the back of the session. -/
def SparesActors (s : Session) : Request → Prop
  | .op (.world (.addActor _)) | .op (.world (.removeActor _)) => False
  | .edit world => world.actors.map Actor.role = s.world.actors.map Actor.role
  | .op _ => True

/-- What a request makes of the troupe. -/
def Recasts (s t : Session) : Request → Prop
  | .op (.removeActor name) => t.troupe = s.troupe.leave name
  | .op (.addActor actor) => t.troupe = s.troupe.join actor
  | .op (.speech slot op) => t.troupe = s.troupe.modify slot fun member => (member.1, member.2.step op)
  | .op .rewind => t.troupe = s.troupe.hushed
  | .op (.setTopic topic) => t.troupe = if s.topic = topic ∧ s.preview.isNone then s.troupe else s.troupe.hushed
  | .op (.update e) => ∃ log, t.events.toList = s.events.toList ++ log ∧
      Troupe.Performs (log.filterMap t.kind?) (if s.Plays then s.troupe.after e else s.troupe) t.troupe
  | .op (.addSide _) => ∃ log, t.events.toList = s.events.toList ++ log ∧
      Troupe.Performs (log.filterMap t.kind?) s.troupe t.troupe
  | .op (.playSingle _ seconds) => ∃ log, t.events.toList = s.events.toList ++ log ∧
      Troupe.Performs (log.filterMap t.kind?)
        (if 0 < seconds then s.troupe.hushed.after seconds else s.troupe.hushed) t.troupe
  | .op .fastForward => ∃ frames : List Seconds, s.steps (frames.map .update) = some t
  | .op (.world _) | .edit _ => s.troupe.SameRoles t.troupe
  | .op _ => t.troupe = s.troupe

/-- Skipping speech is a number of frames. -/
theorem skipSpeech_frames {left taken count : Nat} (hs : s.Staffed) (h : s.skipSpeech left taken = some (t, count)) :
    t.Staffed ∧ ∃ frames : List Seconds, s.steps (frames.map .update) = some t := by
  refine skipSpeech_preserves (P := fun t => t.Staffed ∧ ∃ frames : List Seconds, s.steps (frames.map .update) = some t)
    ?_ ⟨hs, [], rfl⟩ h
  rintro r u ⟨hr, frames, hframes⟩ hu
  refine ⟨(update_enacts hr hu).1, frames ++ [r.options.fastForwardStep], ?_⟩
  rw [steps] at hframes ⊢
  rw [List.map_append, List.foldlM_append, hframes]
  simp [step, hu]

/-- An action that is tried out is played from the start, when nobody says anything. -/
theorem playSingle_enacts {seconds : Seconds} (hs : s.Staffed) (h : s.playSingle a seconds = some t) :
    t.Staffed ∧ ∃ log, t.events.toList = s.events.toList ++ log ∧ Troupe.Performs (log.filterMap t.kind?)
      (if 0 < seconds then s.troupe.hushed.after seconds else s.troupe.hushed) t.troupe := by
  let q : Session := { s with preview := some a }
  let r : Session := { q.rewind with running := true, paused := false }
  have hq : q.Staffed := ⟨hs.scripted, hs.slots⟩
  obtain ⟨hr, htroupe⟩ : r.Staffed ∧ r.troupe = s.troupe.hushed := ⟨⟨hq.rewind.1.scripted, hq.rewind.1.slots⟩, hq.rewind.2⟩
  have hevents : r.events.toList = s.events.toList ++ [.rewound] := events_rewind
  have hplays : r.Plays := by
    have hpreview : r.preview = some a := (begins_rewind q).2.preview
    exact ⟨by simp [hasScript, hpreview], rfl, rfl⟩
  unfold playSingle at h
  simp only at h
  split at h
  · rename_i hlong
    obtain ⟨ht, log, hlog, hperforms⟩ := update_enacts hr h
    rw [if_pos hplays, htroupe] at hperforms
    rw [if_pos hlong]
    exact ⟨ht, .rewound :: log, by rw [hlog, hevents]; simp, hperforms⟩
  · rename_i hshort
    cases h
    rw [if_neg hshort]
    exact ⟨hr, [.rewound], hevents, htroupe ▸ .nil⟩

/-- A request makes of the troupe what it should. -/
theorem respond_recasts (hs : s.Staffed) (hspares : s.SparesActors request) (h : s.respond request = some t) :
    t.Staffed ∧ s.Recasts t request := by
  cases request with
  | edit world =>
    cases h
    exact hs.of_roles hs.scripted rfl hspares
  | op op =>
    obtain ⟨⟨u, reply⟩, hstep, rfl⟩ := Option.map_eq_some_iff.mp h
    cases op with
    | setTopic topic =>
      cases hstep
      unfold setTopic
      split
      · rename_i hsame
        exact ⟨hs, (if_pos hsame).symm⟩
      · rename_i hother
        have hset : ({ s with topic, preview := none } : Session).Staffed := ⟨hs.scripted, hs.slots⟩
        exact ⟨hset.rewind.1, hset.rewind.2.trans (if_neg hother).symm⟩
    | setRunning value | setPaused value | setAutoAdvance value | takeInfo | takeEvents =>
      cases hstep
      exact ⟨⟨hs.scripted, hs.slots⟩, rfl⟩
    | update e =>
      obtain ⟨v, hv, hreply⟩ := Option.bind_eq_some_iff.mp hstep
      cases hreply
      exact update_enacts hs hv
    | rewind =>
      cases hstep
      exact hs.rewind
    | advance =>
      cases hstep
      exact hs.keeps (.advance .main)
    | fastForward =>
      obtain ⟨⟨v, count⟩, hv, hreply⟩ := Option.bind_eq_some_iff.mp hstep
      cases hreply
      exact skipSpeech_frames hs hv
    | cancelLoop depth =>
      cases hstep
      exact hs.keeps (cancelLoop_alike depth).retains
    | select index =>
      cases hstep
      obtain ⟨values, halike⟩ := select_alike s index
      have hset : Retains s { s with world := { s.world with values } } := ⟨fun h => h, rfl, rfl⟩
      exact hs.keeps (hset.trans halike.retains)
    | playSingle action seconds =>
      obtain ⟨v, hv, hreply⟩ := Option.bind_eq_some_iff.mp hstep
      cases hreply
      exact playSingle_enacts hs hv
    | addSide l =>
      obtain ⟨v, hv, hreply⟩ := Option.bind_eq_some_iff.mp hstep
      cases hreply
      have hadded : Enacts s (s.addLane l) := .addLane hs l
      have henacts := hadded.trans (Enacts.actByAct.pass hv hadded.staffed)
      obtain ⟨log, hlog, hperforms⟩ := henacts.log
      exact ⟨henacts.staffed, log, hlog, henacts.lists.kind? ▸ hperforms⟩
    | addActor actor =>
      cases hstep
      exact hs.addActor actor
    | removeActor name =>
      cases hstep
      exact hs.removeActor name
    | speech slot op =>
      cases hstep
      exact hs.changeSpeech slot _
    | world op =>
      cases hstep
      exact hs.of_roles hs.scripted rfl
        (World.map_step (fun actor hop => by subst hop; exact hspares) fun name hop => by subst hop; exact hspares)

/-- There is one slot for each actor whenever a lane is about to have a pass. -/
theorem Due.staffed (h : s.Due request r id e) (hs : s.Staffed) : r.Staffed := by
  induction h with
  | frame _ _ _ h => exact (Enacts.actByAct.passes h (hs.aged _).1).staffed
  | added => exact (Enacts.addLane hs _).staffed
  | started _ h htopic ih => exact (Enacts.actByAct.started h htopic ih).staffed

theorem Reaches.staffed (h : Reaches c SparesActors s) : s.Staffed := by
  induction h with
  | start chance options => exact ⟨⟨chance, rfl⟩, by simp [Session.start, Conversation.world]⟩
  | responds _ hspares h ih => exact (respond_recasts ih hspares h).1

/-- There is one slot for each actor at all times, also in the middle of a frame, as long as the host does not put actors
    into the world or take them out of it itself. Every request makes of the actors and their slots what it should: an
    actor who is removed goes together with the slot, one who is added comes with an idle slot, a line is said by the
    actor it is meant for, and apart from this all actors stay who they are and say what they have been saying. -/
theorem one_slot_per_actor (hs : Reaches c SparesActors s) :
    s.slots.length = s.world.actors.length ∧
    ∀ request, s.SparesActors request →
      (∀ r id e, s.Due request r id e → r.slots.length = r.world.actors.length) ∧
      ∀ t, s.respond request = some t → t.slots.length = t.world.actors.length ∧ s.Recasts t request := by
  refine ⟨hs.staffed.slots, fun request hspares => ⟨fun r id e hdue => (hdue.staffed hs.staffed).slots, fun t h => ?_⟩⟩
  obtain ⟨ht, hrecasts⟩ := respond_recasts hs.staffed hspares h
  exact ⟨ht.slots, hrecasts⟩

end Session

/-- The second of two actors says a line, and then the first one leaves. -/
def Document.banquet : Document where
  profiles := [
    { id := "cook", alias? := none, parameters := .empty, commands := .empty },
    { id := "host", alias? := some "him", parameters := .empty, commands := .empty }]
  values := .empty
  gameCommands := .empty
  files := [{
    id := "tale"
    topics := [
      { id := "dinner"
        block := ⟨[
          { kind := .cue (.speak "him" (some "Welcome.") 5 []) }, { waits := false, kind := .cue (.removeActor "cook") },
          { kind := .cue (.addActor "guest" none) }]⟩ }] }]

/-- The line stays with the actor who says it when the other one leaves, whether the script or the host lets the actor
    go. -/
theorem one_slot_per_actor_banquet :
    ∃ (c : Conversation) (s t u : Session), Document.banquet.load = .ok c ∧
      Session.Reaches c Session.SparesActors s ∧ s.slots.length = s.world.actors.length ∧
      s.troupe.map (fun member => (member.1.id, member.2.text)) = [("cook", none), ("host", some "Welcome.")] ∧
      s.respond (.op (.update 1)) = some t ∧ t.slots.length = t.world.actors.length ∧
      t.troupe.map (fun member => (member.1.id, member.2.text)) = [("host", some "Welcome.")] ∧
      s.respond (.op (.removeActor "cook")) = some u ∧ u.slots.length = u.world.actors.length ∧
      u.troupe = s.troupe.leave "cook" := by
  have hplayed : ∃ c, Document.banquet.load = .ok c ∧
      ((Session.start c (.scripted .zeros) {}).steps [.setTopic (some ⟨0⟩), .setRunning true, .update 1]).any fun s =>
        decide (s.troupe.map (fun member => (member.1.id, member.2.text)) =
            [("cook", none), ("host", some "Welcome.")]) &&
          ((s.respond (.op (.update 1))).any fun t => decide
            (t.troupe.map (fun member => (member.1.id, member.2.text)) = [("host", some "Welcome.")])) &&
          (s.respond (.op (.removeActor "cook"))).isSome :=
    ⟨_, rfl, by decide +kernel⟩
  have hops : ∀ op ∈ [Session.Op.setTopic (some ⟨0⟩), .setRunning true, .update 1],
      ∀ s : Session, s.SparesActors (.op op) := fun op hop s => by
    simp only [List.mem_cons, List.not_mem_nil, or_false] at hop
    rcases hop with rfl | rfl | rfl <;> trivial
  obtain ⟨c, s, hc, hreaches, hall⟩ := Session.exists_reaches hops hplayed
  simp only [Bool.and_eq_true, decide_eq_true_eq, Option.any_eq_true] at hall
  obtain ⟨⟨hbefore, t, ht, hafter⟩, hremoves⟩ := hall
  obtain ⟨u, hu⟩ := Option.isSome_iff_exists.mp hremoves
  obtain ⟨hslots, hrequest⟩ := Session.one_slot_per_actor hreaches
  obtain ⟨hslots', -⟩ := (hrequest (.op (.update 1)) trivial).2 t ht
  obtain ⟨hslots'', hleaves⟩ := (hrequest (.op (.removeActor "cook")) trivial).2 u hu
  exact ⟨c, s, t, u, hc, hreaches, hslots, hbefore, ht, hslots', hafter, hu, hslots'', hleaves⟩

end Dialogue
