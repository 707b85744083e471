import Mathlib.Logic.Function.Iterate
import Dialogue.Proofs.Arising
import Dialogue.Proofs.Loading

/-! Actors that answer to the same name. Names and aliases are looked up together, but only names are kept apart when a
    document is loaded. So an actor whose name is the alias of an earlier one is not meant by it
    (`Document.means_own_name_iff`), and a held command that removes an actor goes on with those that share the name
    (`Session.held_command_world`). -/

namespace Dialogue

/-! ### Who is meant by a name -/

namespace World
variable {w : World} {name : String} {i : Nat} {a : Actor}

theorem changeFirst_eq_modify {f : Actor → Actor} {actors : List Actor}
    (h : actors.findIdx? (·.answersTo name) = some i) : changeFirst name f actors = actors.modify i f := by
  induction actors generalizing i with
  | nil => cases h
  | cons b rest ih =>
    rw [List.findIdx?_cons] at h
    rw [changeFirst]
    cases hb : b.answersTo name with
    | true =>
      rw [hb, if_pos rfl] at h
      obtain rfl := Option.some.inj h
      rfl
    | false =>
      rw [hb, if_neg Bool.false_ne_true] at h
      obtain ⟨k, hk, rfl⟩ := Option.map_eq_some_iff.mp h
      rw [if_neg Bool.false_ne_true, ih hk, List.modify_succ_cons]

/-- Whatever is done by a name is done to the actor in the slot: it is found, removed and changed. -/
structure Means (w : World) (name : String) (i : Nat) (a : Actor) : Prop where
  there : w.actors[i]? = some a
  index : w.actorIndex? name = some i
  actor : w.actor? name = some a
  removed : (w.removeActor name).actors = w.actors.eraseIdx i
  changed : ∀ f, (w.changeActor name f).actors = w.actors.modify i f

/-- The first actor that answers to a name is meant by it. -/
theorem means_iff : w.Means name i a ↔
    w.actors[i]? = some a ∧ a.answersTo name ∧ ∀ j b, j < i → w.actors[j]? = some b → b.answersTo name = false := by
  constructor
  · intro h
    obtain ⟨hi, hanswers, hbefore⟩ := List.findIdx?_eq_some_iff_getElem.mp h.index
    obtain ⟨hi', rfl⟩ := List.getElem?_eq_some_iff.mp h.there
    refine ⟨h.there, hanswers, fun j b hj hb => ?_⟩
    obtain ⟨-, rfl⟩ := List.getElem?_eq_some_iff.mp hb
    exact Bool.eq_false_iff.mpr (hbefore j hj)
  · rintro ⟨ha, hanswers, hbefore⟩
    obtain ⟨hi, rfl⟩ := List.getElem?_eq_some_iff.mp ha
    have hnot : ∀ j (hj : j < i), w.actors[j].answersTo name = false := fun j hj =>
      hbefore j _ hj (List.getElem?_eq_getElem (Nat.lt_trans hj hi))
    have hindex : w.actors.findIdx? (·.answersTo name) = some i :=
      List.findIdx?_eq_some_iff_getElem.mpr ⟨hi, hanswers, fun j hj => by simp [hnot j hj]⟩
    have hactor : w.actors.find? (·.answersTo name) = some w.actors[i] :=
      List.find?_eq_some_iff_getElem.mpr ⟨hanswers, i, hi, rfl, fun j hj => by simp [hnot j hj]⟩
    refine ⟨ha, hindex, hactor, ?_, fun f => changeFirst_eq_modify hindex⟩
    rw [removeActor, List.eraseP_eq_eraseIdx, hindex]

theorem exists_means (ha : w.actors[i]? = some a) (hanswers : a.answersTo name) :
    ∃ j b, j ≤ i ∧ w.Means name j b := by
  induction i using Nat.strongRecOn generalizing a with
  | ind i ih =>
    by_cases hbefore : ∀ j b, j < i → w.actors[j]? = some b → b.answersTo name = false
    · exact ⟨i, a, Nat.le_refl i, means_iff.mpr ⟨ha, hanswers, hbefore⟩⟩
    · -- The earliest of those that answer is meant.
      push Not at hbefore
      obtain ⟨j, b, hj, hb, hanswers⟩ := hbefore
      obtain ⟨k, b', hk, hmeans⟩ := ih j hj hb (by simpa using hanswers)
      exact ⟨k, b', Nat.le_trans hk (Nat.le_of_lt hj), hmeans⟩

end World

/-- Two actors of a document have different names. -/
theorem Document.index_eq_of_id {d : Document} {c : Conversation} (h : d.load = .ok c) {i j : Nat} {a b : Actor}
    (ha : c.world.actors[i]? = some a) (hb : c.world.actors[j]? = some b) (hid : a.id = b.id) : i = j := by
  have hids : c.world.actors.map (·.id) = d.profiles.map (·.id) := by
    rw [Conversation.world, profiles_of_load h, List.map_map]
    rfl
  have hnodup : (c.world.actors.map (·.id)).Nodup := hids ▸ (exists_load_iff.mp ⟨c, h⟩).actorsOnce
  have hlen : i < (c.world.actors.map (·.id)).length := by
    rw [List.length_map]
    exact (List.getElem?_eq_some_iff.mp ha).1
  refine (List.getElem?_inj hlen hnodup).mp ?_
  rw [List.getElem?_map, List.getElem?_map, ha, hb, Option.map_some, Option.map_some, hid]

/-- An actor of a document is meant by its own name exactly if this is not the alias of an earlier one; otherwise the
    name means an earlier actor with this alias. -/
theorem Document.means_own_name_iff {d : Document} {c : Conversation} (h : d.load = .ok c) {i : Nat} {a : Actor}
    (ha : c.world.actors[i]? = some a) :
    (c.world.Means a.id i a ↔ ∀ j b, j < i → c.world.actors[j]? = some b → b.alias? ≠ some a.id) ∧
      ∃ j b, j ≤ i ∧ c.world.Means a.id j b ∧ (j < i → b.alias? = some a.id) := by
  have hown : a.answersTo a.id := by simp [Actor.answersTo]
  -- Names are kept apart, so that an earlier actor can answer by its alias only.
  have hbefore : ∀ j b, j < i → c.world.actors[j]? = some b → (b.answersTo a.id ↔ b.alias? = some a.id) := by
    intro j b hj hb
    have hid : b.id ≠ a.id := fun hid => absurd (index_eq_of_id h hb ha hid) (Nat.ne_of_lt hj)
    simp [Actor.answersTo, hid]
  constructor
  · rw [World.means_iff]
    constructor
    · rintro ⟨-, -, hnot⟩ j b hj hb halias
      exact Bool.false_ne_true ((hnot j b hj hb).symm.trans ((hbefore j b hj hb).mpr halias))
    · exact fun hnot => ⟨ha, hown, fun j b hj hb =>
        Bool.eq_false_iff.mpr fun hanswers => hnot j b hj hb ((hbefore j b hj hb).mp hanswers)⟩
  · obtain ⟨j, b, hj, hmeans⟩ := World.exists_means ha hown
    exact ⟨j, b, hj, hmeans, fun hlt => (hbefore j b hlt hmeans.there).mp (World.means_iff.mp hmeans).2.1⟩

/-- Three actors; the alias of the first one is the name of the second one. -/
def Document.trio : Document where
  profiles := [⟨"ann", some "ben", .empty, .empty⟩, ⟨"ben", some "eva", .empty, .empty⟩, ⟨"carl", none, .empty, .empty⟩]
  values := .empty
  gameCommands := .empty
  files := []

/-- The third actor is meant by its own name. -/
theorem means_own_name_iff_trio :
    ∃ c a, Document.trio.load = .ok c ∧ c.world.actors[2]? = some a ∧ a.id = "carl" ∧ c.world.Means a.id 2 a := by
  have hloaded : ∃ c, Document.trio.load = .ok c ∧
      (c.world.actors[2]?).any (fun a => a.id == "carl" && c.world.actors.all fun b => b.alias? != some a.id) :=
    ⟨_, rfl, by decide +kernel⟩
  obtain ⟨c, hc, hthere⟩ := hloaded
  obtain ⟨a, ha, hall⟩ := (Option.any_eq_true _ _).mp hthere
  simp only [Bool.and_eq_true, beq_iff_eq, List.all_eq_true, bne_iff_ne] at hall
  exact ⟨c, a, hc, ha, hall.1,
    (Document.means_own_name_iff hc ha).1.mpr fun j b _ hb => hall.2 b (List.mem_of_getElem? hb)⟩

/-- The second actor is not meant by its own name. -/
theorem own_name_means_other_trio :
    ∃ c a, Document.trio.load = .ok c ∧ c.world.actors[1]? = some a ∧ a.id = "ben" ∧
      c.world.actorIndex? a.id = some 0 :=
  ⟨_, _, rfl, rfl, rfl, rfl⟩

/-! ### Commands -/

/-- What a command does to the world. -/
def World.commanded (w : World) : Cue → World
  | .trigger name action => w.apply name action
  | .addActor actor alias? =>
    if (w.actor? actor).isSome then w else w.addActor { id := actor, alias?, parameters := .empty, commands := .empty }
  | .removeActor name => w.removeActor name
  | _ => w

namespace World
variable {w : World} {name : String}

theorem apply_apply (action : TriggerAction) : (w.apply name action).apply name action = w.apply name action := by
  have hafter (t : Trigger) : (t.after action).after action = t.after action := by cases action <;> rfl
  have htrigger : (w.apply name action).trigger name = (w.trigger name).after action := by simp [apply, trigger]
  rw [apply, htrigger, hafter]
  simp only [apply, mk.injEq, true_and]
  refine Table.ext_get? fun other => ?_
  by_cases hother : other = name
  · rw [hother, Table.get?_insert_self, Table.get?_insert_self]
  · rw [Table.get?_insert_of_ne _ _ hother]

theorem countP_eraseP {p : Actor → Bool} (actors : List Actor) :
    (actors.eraseP p).countP p = actors.countP p - 1 := by
  induction actors with
  | nil => rfl
  | cons a rest ih =>
    cases ha : p a with
    | true => rw [List.eraseP_cons_of_pos ha, List.countP_cons_of_pos ha, Nat.add_sub_cancel]
    | false => rw [List.eraseP_cons_of_neg (by simp [ha]), List.countP_cons_of_neg (by simp [ha]), ih,
        List.countP_cons_of_neg (by simp [ha])]

/-- How many actors answer to a name. -/
def namesakes (w : World) (name : String) : Nat := w.actors.countP (·.answersTo name)

theorem namesakes_removeActor : (w.removeActor name).namesakes name = w.namesakes name - 1 := countP_eraseP _

theorem namesakes_iterate (n : Nat) : ((removeActor · name)^[n] w).namesakes name = w.namesakes name - n := by
  induction n with
  | zero => rfl
  | succ n ih => rw [Function.iterate_succ_apply', namesakes_removeActor, ih, Nat.sub_sub]

theorem removeActor_eq_self (h : w.namesakes name = 0) : w.removeActor name = w := by
  have hnone : w.actors.eraseP (·.answersTo name) = w.actors :=
    List.eraseP_of_forall_not (List.countP_eq_zero.mp h)
  rw [removeActor, hnone]

/-- A command that is given again does nothing more, if no other actor answers to a name that it removes. -/
theorem commanded_commanded {cue : Cue} (h : ∀ name, cue = .removeActor name → w.namesakes name ≤ 1) :
    (w.commanded cue).commanded cue = w.commanded cue := by
  cases cue with
  | trigger name action => exact apply_apply action
  | addActor actor alias? =>
    have hthere : ((w.commanded (.addActor actor alias?)).actor? actor).isSome := by
      rw [commanded]
      split
      · assumption
      · simp [actor?, addActor, Actor.answersTo]
    exact if_pos hthere
  | removeActor name =>
    refine removeActor_eq_self ?_
    rw [commanded, namesakes_removeActor]
    exact Nat.sub_eq_zero_of_le (h name rfl)
  | _ => rfl

/-- A command that is given a number of times does no more than the first time, unless it removes actors and more than
    one answers to the name. -/
theorem iterate_commanded_eq_iff {cue : Cue} {n : Nat} :
    (commanded · cue)^[n + 1] w = w.commanded cue ↔ n = 0 ∨ ∀ name, cue = .removeActor name → w.namesakes name ≤ 1 := by
  constructor
  · intro h
    by_contra hmore
    push Not at hmore
    -- Each time one more of the actors who answer to the name is gone.
    obtain ⟨hn, name, rfl, hmany⟩ := hmore
    have hcount : w.namesakes name - (n + 1) = w.namesakes name - 1 := by
      rw [← namesakes_iterate, ← namesakes_removeActor]
      exact congrArg (namesakes · name) h
    omega
  · rintro (rfl | h)
    · rfl
    · rw [Function.iterate_succ_apply]
      exact Function.iterate_fixed (commanded_commanded h) n

end World

namespace Session
variable {s t u v : Session} {id : LaneId} {e : Seconds} {l : Lane} {ref : ActionRef} {a : Action ListId} {n : Nat}

theorem options_changeLane {f : Lane → Lane} : (s.changeLane id f).options = s.options := by cases id <;> rfl

theorem options_advance : (s.advance id).options = s.options := by
  unfold advance
  split
  · split
    · rfl
    · split
      · exact options_changeLane
      · simp only
        split <;> exact options_changeLane
  · rfl

theorem options_carried : (s.carried id e l ref a).options = s.options := by
  have hbegun : (s.begun id).options = s.options := by
    unfold begun
    split
    · exact options_advance
    · rfl
  have hopened : (s.opened id).options = s.options := by
    unfold opened endBrokenLoop
    split
    · exact hbegun
    · exact options_changeLane.trans hbegun
  exact options_changeLane.trans hopened

theorem world_removeActor (name : String) : (s.removeActor name).world = s.world.removeActor name := by
  unfold removeActor
  simp only
  split
  · rename_i hnone
    have hnobody : s.world.namesakes name = 0 :=
      List.countP_eq_zero.mpr fun actor hactor => by simp [List.findIdx?_eq_none_iff.mp hnone actor hactor]
    exact (World.removeActor_eq_self hnobody).symm
  · rfl

/-- A command changes the world, and then it is told to the host. -/
theorem perform_command (s : Session) (start : Session → Lane → Option Session) (chance : Chance) (id : LaneId)
    (ref : ActionRef) {cue : Cue} (hkind : a.kind = .cue cue) (hcommand : a.isCommand) :
    ∃ (r : Session) (info : String), s.perform start chance id ref cue = some (r.announce id info) ∧
      r.world = s.world.commanded cue ∧ r.interpreter = s.interpreter ∧ r.options = s.options ∧
      r.lane? id = s.lane? id := by
  have hlane {r : Session} (hmain : r.main = s.main) (hsides : r.sides = s.sides) : r.lane? id = s.lane? id := by
    cases id with
    | main => exact congrArg some hmain
    | side n => exact congrArg (List.lookup n) hsides
  unfold Action.isCommand at hcommand
  rw [hkind] at hcommand
  cases cue with
  | actorCommand | gameCommand => exact ⟨s, _, rfl, rfl, rfl, rfl, rfl⟩
  | trigger => exact ⟨_, _, rfl, rfl, rfl, rfl, hlane rfl rfl⟩
  | addActor actor =>
    refine ⟨_, _, rfl, ?_⟩
    rw [World.commanded]
    split
    · exact ⟨rfl, rfl, rfl, rfl⟩
    · exact ⟨rfl, rfl, rfl, hlane rfl rfl⟩
  | removeActor name =>
    refine ⟨_, _, rfl, world_removeActor name, ?_⟩
    unfold removeActor
    simp only
    split <;> exact ⟨rfl, rfl, hlane rfl rfl⟩
  | _ => cases hcommand

theorem lane?_announce (hhold : s.options.autoAdvance = false) (info : String) :
    (s.announce id info).lane? id = s.lane? id := by
  rw [announce, hhold, if_neg Bool.false_ne_true]
  cases id <;> rfl

/-- A pass that carries out a command changes the world as the command says. If commands are held, it stays the next
    action of the lane. -/
theorem pass_command {chance : Chance} {cue : Cue} (h : s.Carries id e l ref a) (hkind : a.kind = .cue cue)
    (hcommand : a.isCommand) (hchance : s.interpreter = .scripted chance) :
    ∃ t, s.pass id e = some t ∧ t.world = s.world.commanded cue ∧ t.interpreter = s.interpreter ∧
      (s.options.autoAdvance = false → t.lane? id = some l.prime) := by
  have halike : Alike s (s.carried id e l ref a) := .carried
  obtain ⟨q, -, hcarried, hlane, -⟩ := carried_touches h
  obtain ⟨r, info, hperform, hworld, hinterpreter, hoptions, hsame⟩ :=
    perform_command (s.carried id e l ref a) (addPlaying (passWithin (s.conversation.topics.length + 1))) chance id ref
      hkind hcommand
  have htold : Alike r ((r.announce id info).changeLane id Lane.prime) := (Alike.announce info).trans .changeLane
  refine ⟨(r.announce id info).changeLane id Lane.prime, ?_, ?_, ?_, fun hhold => ?_⟩
  · rw [pass, patience, passWithin_of_carries h]
    simp only [execute, halike.interpreter, hchance, hkind, hperform, Option.map_some]
  · rw [htold.world, hworld, halike.world]
  · rw [htold.interpreter, hinterpreter, halike.interpreter]
  · have hheld : r.options.autoAdvance = false := by rw [hoptions, options_carried, hhold]
    have hnoted : (s.carried id e l ref a).lane? id = q.lane? id := by
      rw [hcarried]
      cases id <;> rfl
    rw [lane?_changeLane_self, lane?_announce hheld, hsame, hnoted, hlane]
    rfl

theorem pass_recording {noted : List (ActionRef × String)} (h : s.Carries id e l ref a)
    (hnoted : s.interpreter = .recording noted) :
    ∃ t, s.pass id e = some t ∧ t.world = s.world ∧ ∃ noted, t.interpreter = .recording noted := by
  have halike : Alike s (s.carried id e l ref a) := .carried
  let r : Session := { s.carried id e l ref a with interpreter := .recording ((ref, a.label) :: noted) }
  have hgone : Alike r ((r.advance id).changeLane id Lane.prime) := Alike.advance.trans .changeLane
  exact ⟨_, pass_of_recording h hnoted, hgone.world.trans halike.world, _, hgone.interpreter⟩

/-- The action is carried out on the lane a number of times, and between two of them nothing happens to the world. -/
inductive Repeats (s : Session) (id : LaneId) (ref : ActionRef) (a : Action ListId) : Nat → Session → Prop where
  | once {e : Seconds} {l : Lane} {t : Session} (h : s.Carries id e l ref a) (hpass : s.pass id e = some t) :
      Repeats s id ref a 1 t
  | again {n : Nat} {e : Seconds} {l : Lane} {t u v : Session} (h : Repeats s id ref a n t)
      (hworld : u.world = t.world) (hinterpreter : u.interpreter = t.interpreter) (hcarries : u.Carries id e l ref a)
      (hpass : u.pass id e = some v) :
      Repeats s id ref a (n + 1) v

theorem Repeats.world_of_scripted {chance : Chance} {cue : Cue} (h : s.Repeats id ref a n t) (hkind : a.kind = .cue cue)
    (hcommand : a.isCommand) (hchance : s.interpreter = .scripted chance) :
    t.world = (World.commanded · cue)^[n] s.world ∧ t.interpreter = s.interpreter := by
  induction h with
  | once hcarries hpass =>
    obtain ⟨t', hpass', hworld, hinterpreter, -⟩ := pass_command hcarries hkind hcommand hchance
    obtain rfl := Option.some.inj (hpass'.symm.trans hpass)
    exact ⟨hworld, hinterpreter⟩
  | again _ hworld hinterpreter hcarries hpass ih =>
    have hchance := (hinterpreter.trans ih.2).trans hchance
    obtain ⟨v', hpass', hworld', hinterpreter', -⟩ := pass_command hcarries hkind hcommand hchance
    obtain rfl := Option.some.inj (hpass'.symm.trans hpass)
    rw [Function.iterate_succ_apply', ← ih.1, ← hworld]
    exact ⟨hworld', hinterpreter'.trans (hinterpreter.trans ih.2)⟩

theorem Repeats.world_of_recording {noted : List (ActionRef × String)} (h : s.Repeats id ref a n t)
    (hnoted : s.interpreter = .recording noted) : t.world = s.world ∧ ∃ noted, t.interpreter = .recording noted := by
  induction h with
  | once hcarries hpass =>
    obtain ⟨t', hpass', hend⟩ := pass_recording hcarries hnoted
    obtain rfl := Option.some.inj (hpass'.symm.trans hpass)
    exact hend
  | again _ hworld hinterpreter hcarries hpass ih =>
    obtain ⟨hsame, noted, ht⟩ := ih
    obtain ⟨v', hpass', hsame', hv⟩ := pass_recording hcarries (hinterpreter.trans ht)
    obtain rfl := Option.some.inj (hpass'.symm.trans hpass)
    exact ⟨hsame'.trans (hworld.trans hsame), hv⟩

theorem Repeats.pos (h : s.Repeats id ref a n t) : 0 < n := by cases h <;> omega

/-- A command that is held stays the next action of its lane. When it has been carried out a number of times, with
    nothing else happening to the world, the world is the same as after the first time, unless the command removes an
    actor and more than one answers to the name. -/
theorem held_command_world {cue : Cue} (h : s.Carries id e l ref a) (hkind : a.kind = .cue cue) (hcommand : a.isCommand)
    (hhold : s.options.autoAdvance = false) :
    ∃ t, s.pass id e = some t ∧ ((∃ chance, s.interpreter = .scripted chance) → t.lane? id = some l.prime) ∧
      ∀ n u, s.Repeats id ref a n u → (u.world = t.world ↔
        n = 1 ∨ (∃ noted, s.interpreter = .recording noted) ∨
          ∀ name, cue = .removeActor name → s.world.namesakes name ≤ 1) := by
  cases hinterpreter : s.interpreter with
  | scripted chance =>
    obtain ⟨t, hpass, hworld, -, hlane⟩ := pass_command h hkind hcommand hinterpreter
    refine ⟨t, hpass, fun _ => hlane hhold, fun n u hrepeats => ?_⟩
    obtain ⟨m, rfl⟩ : ∃ m, n = m + 1 := ⟨n - 1, by have := hrepeats.pos; omega⟩
    rw [(hrepeats.world_of_scripted hkind hcommand hinterpreter).1, hworld, World.iterate_commanded_eq_iff]
    simp
  | recording noted =>
    obtain ⟨t, hpass, hworld, -⟩ := pass_recording h hinterpreter
    refine ⟨t, hpass, nofun, fun n u hrepeats => ?_⟩
    have hsame := (hrepeats.world_of_recording hinterpreter).1
    exact iff_of_true (hsame.trans hworld.symm) (.inr (.inl ⟨noted, rfl⟩))

theorem SameLists.carries_eq {b : Action ListId} {k : Lane} {e' : Seconds} (hlists : SameLists s t)
    (h : s.Carries id e l ref a) (h' : t.Carries id e' k ref b) : a = b := by
  have hopened : (t.opened id).action? = (s.opened id).action? := by
    rw [(opened_touches t id).spans.lists.action?, (opened_touches s id).spans.lists.action?, hlists.action?]
  exact Option.some.inj (h.action.symm.trans ((congrFun hopened ref).symm.trans h'.action))

/-- Whether commands are held, the main lane carries out the same cue in two frames, and this cue and what comes of the
    two passes are as asked. -/
def carriesTwice (p : Cue → Session → Session → Bool) (s : Session) : Bool :=
  !s.options.autoAdvance &&
    ((s.aged 1).carrying? .main 1).any fun x => ((s.aged 1).pass .main 1).any fun t =>
      ((t.aged 1).carrying? .main 1).any fun y => ((t.aged 1).pass .main 1).any fun u =>
        decide (x.2.1 = y.2.1) && x.2.2.cue?.any fun cue => p cue t u

theorem exists_repeats {d : Document} {options : Options} {ops : List Op} {p : Cue → Session → Session → Bool}
    (hops : ∀ op ∈ ops, ∀ l, op ≠ .addSide l)
    (h : ∃ c, d.load = .ok c ∧ ((Session.start c (.scripted .zeros) options).steps ops).any (carriesTwice p)) :
    ∃ c s l ref a cue t u, d.load = .ok c ∧ Arises c [] s ∧ s.options.autoAdvance = false ∧ s.Carries .main 1 l ref a ∧
      a.kind = .cue cue ∧ s.Repeats .main ref a 1 t ∧ s.Repeats .main ref a 2 u ∧ p cue t u := by
  obtain ⟨c, s, hc, hs, hplayed⟩ := exists_arises hops h
  obtain ⟨hhold, hplayed⟩ := Bool.and_eq_true_iff.mp hplayed
  rw [Bool.not_eq_true'] at hhold
  obtain ⟨⟨l, ref, a⟩, hfirst, hplayed⟩ := (Option.any_eq_true _ _).mp hplayed
  obtain ⟨t, ht, hplayed⟩ := (Option.any_eq_true _ _).mp hplayed
  obtain ⟨⟨k, ref', a'⟩, hagain, hplayed⟩ := (Option.any_eq_true _ _).mp hplayed
  obtain ⟨u, hu, hplayed⟩ := (Option.any_eq_true _ _).mp hplayed
  obtain ⟨hsame, hp⟩ := Bool.and_eq_true_iff.mp hplayed
  obtain rfl : ref = ref' := of_decide_eq_true hsame
  have haged : Arises c [] (s.aged 1) := .aged hs 1
  have hfirst := carries_iff.mpr hfirst
  have hagain := carries_iff.mpr hagain
  obtain ⟨acting, hpass⟩ := pass_confined haged.regular.numbered ht
  have hlists : SameLists (s.aged 1) (t.aged 1) := hpass.lists.trans ⟨rfl, rfl, rfl⟩
  obtain rfl : a = a' := hlists.carries_eq hfirst hagain
  have honce : (s.aged 1).Repeats .main ref a 1 t := .once hfirst ht
  obtain ⟨cue, hcue, hp⟩ := (Option.any_eq_true _ _).mp hp
  exact ⟨c, s.aged 1, l, ref, a, cue, t, u, hc, haged, hhold, hfirst, Action.cue?_eq_some_iff.mp hcue, honce,
    .again (u := t.aged 1) honce rfl rfl hagain hu, hp⟩

end Session

/-- Somebody comes in one topic. In another one `eva` leaves; one actor has this name, another one has it as an
    alias. -/
def Document.doorstep : Document where
  profiles := [⟨"eva", none, .empty, .empty⟩, ⟨"ann", some "eva", .empty, .empty⟩]
  values := .empty
  gameCommands := .empty
  files := [{
    id := "tale"
    topics := [
      { id := "coming", block := ⟨[{ kind := .cue (.addActor "guest" none) }]⟩ },
      { id := "leaving", block := ⟨[{ kind := .cue (.removeActor "eva") }]⟩ }] }]

/-- An actor who comes is there once, though the action is carried out twice. -/
theorem held_command_world_doorstep :
    ∃ c s ref a t u, Document.doorstep.load = .ok c ∧ Session.Arises c [] s ∧ s.options.autoAdvance = false ∧
      a.kind = .cue (.addActor "guest" none) ∧ s.pass .main 1 = some t ∧ s.Repeats .main ref a 2 u ∧
      u.world = t.world := by
  have hplayed : ∃ c, Document.doorstep.load = .ok c ∧
      ((Session.start c (.scripted .zeros) { autoAdvance := false }).steps [.setTopic (some ⟨0⟩), .setRunning true]).any
        (Session.carriesTwice fun cue _ _ => decide (cue = .addActor "guest" none)) :=
    ⟨_, rfl, by decide +kernel⟩
  obtain ⟨c, s, l, ref, a, cue, -, u, hc, hs, hhold, hcarries, hkind, -, htwice, hcue⟩ :=
    Session.exists_repeats (by simp) hplayed
  obtain rfl := of_decide_eq_true hcue
  obtain ⟨t, ht, -, hsame⟩ := Session.held_command_world hcarries hkind (by simp [Action.isCommand, hkind]) hhold
  exact ⟨c, s, ref, a, t, u, hc, hs, hhold, hkind, ht, htwice, (hsame 2 u htwice).mpr (.inr (.inr (by simp)))⟩

/-- The second time, the other actor is removed. -/
theorem held_removal_goes_on_doorstep :
    ∃ c s ref a t u, Document.doorstep.load = .ok c ∧ Session.Arises c [] s ∧ s.options.autoAdvance = false ∧
      a.kind = .cue (.removeActor "eva") ∧ s.Repeats .main ref a 1 t ∧ s.Repeats .main ref a 2 u ∧
      u.world ≠ t.world := by
  have hplayed : ∃ c, Document.doorstep.load = .ok c ∧
      ((Session.start c (.scripted .zeros) { autoAdvance := false }).steps [.setTopic (some ⟨1⟩), .setRunning true]).any
        (Session.carriesTwice fun cue t u => decide (cue = .removeActor "eva") && decide (u.world ≠ t.world)) :=
    ⟨_, rfl, by decide +kernel⟩
  obtain ⟨c, s, l, ref, a, cue, t, u, hc, hs, hhold, -, hkind, honce, htwice, hp⟩ :=
    Session.exists_repeats (by simp) hplayed
  simp only [Bool.and_eq_true, decide_eq_true_eq] at hp
  obtain ⟨rfl, hworld⟩ := hp
  exact ⟨c, s, ref, a, t, u, hc, hs, hhold, hkind, honce, htwice, hworld⟩

end Dialogue
