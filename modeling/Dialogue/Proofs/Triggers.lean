import Mathlib.Data.List.Induction
import Dialogue.Proofs.Acts
import Dialogue.Proofs.Clocks
import Dialogue.Proofs.Transcripts
import Dialogue.Proofs.Troupe

/-! Triggers and what has been done to them. A trigger is known by its history: all that actions and the host have done to
    triggers of that name, one after the other. Whether it has just been fired, and whether it has been fired since it was
    last forgotten, can be read off the history, and nothing that is done to other triggers matters (`triggers_recall`). -/

namespace Dialogue

/-- Something that is done to a trigger. -/
structure Pull where
  name : String
  action : TriggerAction
  deriving DecidableEq

/-- The last thing that has been done to a trigger is to fire it. -/
def LastFires (history : List Pull) (name : String) : Prop :=
  ∃ before after, history = before ++ ⟨name, .fire⟩ :: after ∧ ∀ later ∈ after, later.name ≠ name

/-- A trigger has been fired or pulsed, and has not been forgotten since. -/
def Remembers (history : List Pull) (name : String) : Prop :=
  ∃ action, (action = .fire ∨ action = .pulse) ∧
    ∃ before after, history = before ++ ⟨name, action⟩ :: after ∧ ⟨name, .fullReset⟩ ∉ after

/-- What a condition wants to know of a history. -/
def TriggerMode.IsSo (history : List Pull) (name : String) : TriggerMode → Prop
  | .fired => LastFires history name
  | .notFired => ¬LastFires history name
  | .everFired => Remembers history name
  | .neverFired => ¬Remembers history name

/-! ### Histories -/

section Histories
variable {history : List Pull} {pull : Pull} {name : String}

theorem not_lastFires_nil : ¬LastFires [] name := by
  rintro ⟨before, after, hsplit, -⟩
  simp at hsplit

theorem not_remembers_nil : ¬Remembers [] name := by
  rintro ⟨action, -, before, after, hsplit, -⟩
  simp at hsplit

theorem lastFires_concat :
    LastFires (history ++ [pull]) name ↔ pull = ⟨name, .fire⟩ ∨ pull.name ≠ name ∧ LastFires history name := by
  rw [LastFires, exists_split_concat (P := fun after => ∀ later : Pull, later ∈ after → later.name ≠ name)]
  simp only [List.not_mem_nil, false_implies, implies_true, and_true, List.forall_mem_append, List.forall_mem_singleton]
  refine or_congr_right ⟨?_, ?_⟩
  · rintro ⟨before, after, hsplit, hafter, hother⟩
    exact ⟨hother, before, after, hsplit, hafter⟩
  · rintro ⟨hother, before, after, hsplit, hafter⟩
    exact ⟨before, after, hsplit, hafter, hother⟩

theorem remembers_concat :
    Remembers (history ++ [pull]) name ↔
      pull = ⟨name, .fire⟩ ∨ pull = ⟨name, .pulse⟩ ∨ pull ≠ ⟨name, .fullReset⟩ ∧ Remembers history name := by
  simp only [Remembers, exists_split_concat (P := fun after => (⟨name, .fullReset⟩ : Pull) ∉ after), List.not_mem_nil,
    not_false_eq_true, and_true, List.mem_append, List.mem_singleton, not_or]
  constructor
  · rintro ⟨action, hfires, rfl | ⟨before, after, hsplit, hafter, hother⟩⟩
    · exact hfires.imp (congrArg (Pull.mk name)) fun h => .inl (congrArg (Pull.mk name) h)
    · exact .inr (.inr ⟨Ne.symm hother, action, hfires, before, after, hsplit, hafter⟩)
  · rintro (rfl | rfl | ⟨hother, action, hfires, before, after, hsplit, hafter⟩)
    · exact ⟨.fire, .inl rfl, .inl rfl⟩
    · exact ⟨.pulse, .inr rfl, .inl rfl⟩
    · exact ⟨action, hfires, .inr ⟨before, after, hsplit, hafter, Ne.symm hother⟩⟩

/-- A trigger that has just been fired has been fired since it was last forgotten. -/
theorem LastFires.remembers (h : LastFires history name) : Remembers history name := by
  obtain ⟨before, after, hsplit, hafter⟩ := h
  exact ⟨.fire, .inl rfl, before, after, hsplit, fun hforgets => hafter _ hforgets rfl⟩

end Histories

/-! ### Worlds -/

namespace World
variable {w v : World} {history : List Pull} {pull : Pull} {name : String}

/-- The world when a number of things have been done to triggers. -/
def pulled (w : World) (history : List Pull) : World :=
  history.foldl (fun w pull => w.apply pull.name pull.action) w

/-- The triggers are as what has been done to them wants them to be. -/
structure Recalls (w : World) (history : List Pull) : Prop where
  known (name : String) : (w.triggers.get? name).isSome ↔ ∃ action, ⟨name, action⟩ ∈ history
  fired (name : String) : (w.trigger name).fired ↔ LastFires history name
  hasFired (name : String) : (w.trigger name).hasFired ↔ Remembers history name
  hasFired_of_fired (name : String) : (w.trigger name).fired → (w.trigger name).hasFired
  /-- Conditions are answered from the history. -/
  answers (name : String) (mode : TriggerMode) : (Condition.trigger name mode).holds w ↔ mode.IsSo history name
  /-- Nothing that is done to other triggers matters. -/
  own (name : String) :
    w.triggers.get? name = (({} : World).pulled (history.filter (·.name = name))).triggers.get? name

theorem pulled_append (history more : List Pull) : w.pulled (history ++ more) = (w.pulled history).pulled more :=
  List.foldl_append

theorem pulled_concat : w.pulled (history ++ [pull]) = (w.pulled history).apply pull.name pull.action :=
  pulled_append history [pull]

theorem triggers_apply_congr (h : v.triggers = w.triggers) (action : TriggerAction) :
    (v.apply name action).triggers = (w.apply name action).triggers := by
  simp only [apply, trigger, h]

theorem triggers_pulled_congr (h : v.triggers = w.triggers) :
    (v.pulled history).triggers = (w.pulled history).triggers := by
  induction history generalizing v w with
  | nil => exact h
  | cons pull history ih => exact ih (triggers_apply_congr h pull.action)

theorem get?_apply (action : TriggerAction) (other : String) :
    (w.apply name action).triggers.get? other =
      if other = name then some ((w.trigger name).after action) else w.triggers.get? other :=
  Table.get?_insert _ _ _ _

theorem trigger_apply (action : TriggerAction) (other : String) :
    (w.apply name action).trigger other = if other = name then (w.trigger name).after action else w.trigger other := by
  rw [trigger, get?_apply]
  split <;> rfl

theorem isSome_get?_pulled (h : w.triggers = .empty) :
    ((w.pulled history).triggers.get? name).isSome ↔ ∃ action, ⟨name, action⟩ ∈ history := by
  induction history using List.reverseRecOn with
  | nil => simp [pulled, h]
  | append_singleton history pull ih =>
    obtain ⟨other, action⟩ := pull
    rw [pulled_concat, get?_apply]
    split
    · rename_i heq
      simp [heq]
    · rename_i hne
      simp [ih, hne]

theorem fired_trigger_pulled (h : w.triggers = .empty) :
    ((w.pulled history).trigger name).fired ↔ LastFires history name := by
  induction history using List.reverseRecOn with
  | nil => simp [pulled, trigger, h, not_lastFires_nil]
  | append_singleton history pull ih =>
    obtain ⟨other, action⟩ := pull
    rw [pulled_concat, trigger_apply, lastFires_concat]
    split
    · rename_i heq
      cases action <;> simp [heq, Trigger.after]
    · rename_i hne
      simp [ih, Ne.symm hne]

theorem hasFired_trigger_pulled (h : w.triggers = .empty) :
    ((w.pulled history).trigger name).hasFired ↔ Remembers history name := by
  induction history using List.reverseRecOn with
  | nil => simp [pulled, trigger, h, not_remembers_nil]
  | append_singleton history pull ih =>
    obtain ⟨other, action⟩ := pull
    rw [pulled_concat, trigger_apply, remembers_concat]
    split
    · rename_i heq
      subst heq
      cases action <;> simp [Trigger.after, ih]
    · rename_i hne
      simp [ih, Ne.symm hne]

/-- A trigger is as if nothing had been done to others. -/
theorem get?_pulled_filter (h : w.triggers = .empty) :
    (w.pulled history).triggers.get? name =
      (({} : World).pulled (history.filter (·.name = name))).triggers.get? name := by
  induction history using List.reverseRecOn with
  | nil => simp [pulled, h]
  | append_singleton history pull ih =>
    obtain ⟨other, action⟩ := pull
    rw [pulled_concat, get?_apply, List.filter_append]
    split
    · rename_i heq
      subst heq
      have hown : [(⟨name, action⟩ : Pull)].filter (·.name = name) = [⟨name, action⟩] := by simp
      rw [hown, pulled_concat, get?_apply, if_pos rfl, trigger, trigger, ih]
    · rename_i hne
      have hother : [(⟨other, action⟩ : Pull)].filter (·.name = name) = [] := by simp [Ne.symm hne]
      rw [hother, List.append_nil, ih]

theorem recalls_pulled (h : w.triggers = .empty) (history : List Pull) : (w.pulled history).Recalls history where
  known _ := isSome_get?_pulled h
  fired _ := fired_trigger_pulled h
  hasFired _ := hasFired_trigger_pulled h
  hasFired_of_fired _ hfired := (hasFired_trigger_pulled h).mpr ((fired_trigger_pulled h).mp hfired).remembers
  answers name mode := by
    rw [Condition.holds]
    cases mode <;>
      simp [TriggerMode.holds, TriggerMode.IsSo, ← fired_trigger_pulled h, ← hasFired_trigger_pulled h]
  own _ := get?_pulled_filter h

/-- What triggers recall does not depend on the rest of the world. -/
theorem Recalls.congr (h : w.Recalls history) (hsame : v.triggers = w.triggers) : v.Recalls history := by
  have htrigger (name : String) : v.trigger name = w.trigger name := by rw [trigger, trigger, hsame]
  refine ⟨fun name => hsame ▸ h.known name, fun name => htrigger name ▸ h.fired name,
    fun name => htrigger name ▸ h.hasFired name, fun name => htrigger name ▸ h.hasFired_of_fired name,
    fun name mode => ?_, fun name => hsame ▸ h.own name⟩
  have hanswers := h.answers name mode
  rwa [Condition.holds, ← htrigger, ← Condition.holds] at hanswers

end World

/-! ### Actions -/

/-- What an action of some kind says that is to be done to a trigger. -/
def Kind.pull? : Kind ListId → Option Pull
  | .cue (.trigger name action) => some ⟨name, action⟩
  | _ => none

theorem Kind.pull?_eq_some_iff {kind : Kind ListId} {pull : Pull} :
    kind.pull? = some pull ↔ kind = .cue (.trigger pull.name pull.action) := by
  constructor
  · intro h
    unfold pull? at h
    split at h <;> cases h
    rfl
  · rintro rfl
    rfl

namespace Session
variable {c : Conversation} {history : List Pull} {r s t u : Session} {id : LaneId} {e : Seconds} {l : Lane}
variable {ref : ActionRef} {a : Action ListId} {start : Session → Lane → Option Session} {request : Request}

/-- What an action of some kind does to a trigger. Where actions are only noted, it does nothing. -/
def pulling? (s : Session) (kind : Kind ListId) : Option Pull := if s.interpreter.isScripted then kind.pull? else none

/-- What the action that an event tells of has done to a trigger. -/
def pull? (s : Session) (event : Event) : Option Pull := (s.kind? event).bind s.pulling?

/-- The triggers stay as they are, and actions still are done, or only noted. -/
structure SameTriggers (s t : Session) : Prop where
  triggers : t.world.triggers = s.world.triggers
  scripted : t.interpreter.isScripted = s.interpreter.isScripted

theorem Alike.sameTriggers (h : Alike s t) : SameTriggers s t :=
  ⟨congrArg World.triggers h.world, congrArg Interpreter.isScripted h.interpreter⟩

namespace SameTriggers

theorem refl (s : Session) : SameTriggers s s := ⟨rfl, rfl⟩

theorem trans (h : SameTriggers s t) (h' : SameTriggers t u) : SameTriggers s u :=
  ⟨h'.triggers.trans h.triggers, h'.scripted.trans h.scripted⟩

theorem goOn (h : SameTriggers s t) : SameTriggers s (t.advance id) := h.trans Alike.advance.sameTriggers

theorem announce (info : String) (h : SameTriggers s t) : SameTriggers s (t.announce id info) :=
  h.trans (Alike.announce info).sameTriggers

theorem speak (slot : Nat) (length : Seconds) (text : Option String) : SameTriggers s (s.speak slot length text) := by
  unfold Session.speak
  split <;> exact ⟨rfl, rfl⟩

theorem setVariable {chance : Chance} (hchance : s.interpreter = .scripted chance) (name : String) (change : Change) :
    SameTriggers s (s.setVariable chance name change) := by
  unfold Session.setVariable
  split
  · exact refl s
  · exact ⟨rfl, hchance ▸ rfl⟩

theorem setParameter {chance : Chance} (hchance : s.interpreter = .scripted chance) (actor name : String)
    (change : Change) : SameTriggers s (s.setParameter chance actor name change) := by
  unfold Session.setParameter
  split
  · exact refl s
  · exact ⟨rfl, hchance ▸ rfl⟩

theorem removeActor (name : String) : SameTriggers s (s.removeActor name) := by
  unfold Session.removeActor
  simp only
  split <;> exact ⟨rfl, rfl⟩

theorem addMissing (name : String) (actor : Actor) :
    SameTriggers s (if (s.world.actor? name).isSome then s else s.addActor actor) := by
  split <;> exact ⟨rfl, rfl⟩

end SameTriggers

/-- A cue that says nothing of triggers leaves them as they are. -/
theorem perform_sameTriggers {chance : Chance} {cue : Cue} (hchance : s.interpreter = .scripted chance)
    (hplain : s.sideTopic? a = none) (hkind : a.kind = .cue cue) (hcue : a.kind.pull? = none)
    (h : s.perform start chance id ref cue = some t) : SameTriggers s t := by
  cases cue with
  | cameraShot | snippet | stopConversation | stopTopic | actorCommand | gameCommand | comment =>
    exact (perform_alike hchance hplain hkind rfl h).sameTriggers
  | speak actor text minTime words =>
    cases hslot : s.world.actorIndex? actor with
    | none =>
      simp only [perform, hslot, Option.some.injEq] at h
      exact h ▸ ⟨rfl, rfl⟩
    | some slot =>
      simp only [perform, hslot, Option.some.injEq] at h
      exact h ▸ (SameTriggers.speak slot _ text).goOn
  | setVariable name change =>
    cases h
    exact (SameTriggers.setVariable hchance name change).goOn
  | setParameter actor name change =>
    cases h
    exact (SameTriggers.setParameter hchance actor name change).goOn
  | trigger name action =>
    rw [hkind] at hcue
    cases hcue
  | addActor actor alias? =>
    cases h
    exact .announce _ (.addMissing actor _)
  | removeActor actor =>
    cases h
    exact .announce _ (.removeActor actor)

/-- An action that says nothing of triggers, or is only noted, leaves them as they are. -/
theorem execute_sameTriggers (hplain : s.sideTopic? a = none) (hnone : s.pulling? a.kind = none)
    (h : s.execute start id ref a = some t) : SameTriggers s t := by
  cases hinterpreter : s.interpreter with
  | recording noted =>
    simp only [execute, hinterpreter, Option.some.injEq] at h
    subst h
    exact .goOn ⟨rfl, hinterpreter ▸ rfl⟩
  | scripted chance =>
    rw [pulling?, hinterpreter] at hnone
    cases hkind : a.kind with
    | cue cue =>
      simp only [execute, hinterpreter, hkind] at h
      exact perform_sameTriggers hinterpreter hplain hkind hnone h
    | ifElse | choice | wait => exact (execute_alike hinterpreter hplain (by simp [hkind]) h).sameTriggers

/-- An action does to triggers what it says, and nothing else. -/
theorem execute_pulls (hplain : s.sideTopic? a = none) (h : s.execute start id ref a = some t) :
    t.interpreter.isScripted = s.interpreter.isScripted ∧
      t.world.triggers = (s.world.pulled (s.pulling? a.kind).toList).triggers := by
  cases hpull : s.pulling? a.kind with
  | none =>
    have hsame := execute_sameTriggers hplain hpull h
    exact ⟨hsame.scripted, hsame.triggers⟩
  | some pull =>
    obtain ⟨hscripted, hsays⟩ := Option.ite_none_right_eq_some.mp hpull
    have hkind := Kind.pull?_eq_some_iff.mp hsays
    obtain ⟨chance, hchance⟩ := Interpreter.isScripted_iff.mp hscripted
    simp only [execute, hchance, hkind, perform, Option.some.injEq] at h
    rw [← h, (Alike.announce _).interpreter, (Alike.announce _).world]
    exact ⟨hscripted.symm, rfl⟩

/-! ### Passes -/

/-- From `s` to `t`, all that has been done to triggers has been done by the actions that the log tells of. -/
structure Pulls (s t : Session) : Prop where
  lists : SameLists s t
  scripted : t.interpreter.isScripted = s.interpreter.isScripted
  log : ∃ log, t.events.toList = s.events.toList ++ log ∧
    t.world.triggers = (s.world.pulled (log.filterMap s.pull?)).triggers

/-- What has been done to triggers, as what has been logged meanwhile tells. -/
def pulls (s t : Session) : List Pull := (s.logged t).filterMap t.pull?

theorem filterMap_pull? {log : List Event} (h : log.filterMap Event.actingLane? = []) : log.filterMap s.pull? = [] := by
  have hkind : log.filterMap s.kind? = [] := filterMap_kind? h
  rw [List.filterMap_eq_nil_iff] at hkind ⊢
  exact fun event hevent => Option.bind_eq_none_iff.mpr fun kind hkind' => nomatch (hkind event hevent).symm.trans hkind'

theorem pull?_dispatched (ha : s.action? ref = some a) (id : LaneId) (label : String) :
    s.pull? (.dispatched id ref label) = s.pulling? a.kind := by
  rw [pull?, kind?, ha]
  rfl

theorem pulls_eq {log : List Event} (h : t.events.toList = s.events.toList ++ log) :
    s.pulls t = log.filterMap t.pull? := by
  rw [pulls, logged_eq h]

theorem pulls_of_events (h : t.events = s.events) : s.pulls t = [] := by
  rw [pulls, logged_of_events h, List.filterMap_nil]

namespace Pulls

theorem pull? (h : Pulls s t) : t.pull? = s.pull? := by
  funext event
  rw [Session.pull?, Session.pull?, h.lists.kind?]
  congr 1
  funext kind
  rw [pulling?, pulling?, h.scripted]

theorem triggers (h : Pulls s t) : t.world.triggers = (s.world.pulled (s.pulls t)).triggers := by
  obtain ⟨log, hlog, htriggers⟩ := h.log
  rw [pulls_eq hlog, h.pull?, htriggers]

theorem trans (h : Pulls s t) (h' : Pulls t u) : Pulls s u where
  lists := h.lists.trans h'.lists
  scripted := h'.scripted.trans h.scripted
  log := by
    obtain ⟨log, hlog, htriggers⟩ := h.log
    obtain ⟨log', hlog', htriggers'⟩ := h'.log
    refine ⟨log ++ log', by rw [hlog', hlog, List.append_assoc], ?_⟩
    rw [htriggers', h.pull?, List.filterMap_append, World.pulled_append]
    exact World.triggers_pulled_congr htriggers

/-- No action is carried out, and the triggers stay as they are. -/
theorem of_same {log : List Event} (h : SameTriggers s t) (hlists : SameLists s t)
    (hlog : t.events.toList = s.events.toList ++ log) (hnone : log.filterMap Event.actingLane? = []) : Pulls s t where
  lists := hlists
  scripted := h.scripted
  log := ⟨log, hlog, by rw [filterMap_pull? hnone]; exact h.triggers⟩

theorem of_alters (h : SameTriggers s t) (halters : Alters id s t) : Pulls s t := by
  obtain ⟨log, hlog, hnone, -⟩ := halters.log
  exact of_same h halters.lists hlog hnone

theorem aged (e : Seconds) : Pulls s (s.aged e) := of_alters ⟨rfl, rfl⟩ (aged_touches s e .main).toAlters

/-- Action by action, the log tells all that is done to triggers. -/
theorem actByAct : ActByAct Pulls where
  trans := trans
  passive h := by
    obtain ⟨log, hlog, hnone⟩ := h.log
    exact of_same h.toAlike.sameTriggers h.lists hlog hnone
  acts {s t id ref a last start} ha hplain h halters := by
    obtain ⟨log, hlog, hnone, -⟩ := halters.log
    obtain ⟨hscripted, htriggers⟩ := execute_pulls (s := s.note id ref a last) hplain h
    have hevents : t.events.toList = s.events.toList ++ .dispatched id ref a.label :: log := by
      rw [hlog]
      simp [note, record]
    have htold : (.dispatched id ref a.label :: log).filterMap s.pull? = (s.pulling? a.kind).toList := by
      rw [List.filterMap_cons, pull?_dispatched ha, filterMap_pull? hnone]
      cases s.pulling? a.kind <;> rfl
    have hnoted : SameLists s (s.note id ref a last) := ⟨rfl, rfl, rfl⟩
    exact ⟨hnoted.trans halters.lists, hscripted, _, hevents, htold ▸ htriggers⟩
  starts {s id ref a last topic} ha htopic := by
    obtain ⟨chance, file, name, -, hkind, -⟩ := sideTopic?_eq_some htopic
    have htold : [Event.dispatched id ref a.label].filterMap s.pull? = [] := by
      rw [List.filterMap_cons, pull?_dispatched ha, hkind]
      simp [pulling?, Kind.pull?]
    exact ⟨⟨rfl, rfl, rfl⟩, rfl, [.dispatched id ref a.label], by simp [note, record], htold ▸ rfl⟩

theorem update (h : s.update e = some t) : Pulls s t := by
  refine update_preserves (P := Pulls s) (actByAct.refl s) (aged e) ?_ ?_ h
  · exact fun _ _ _ hr hu => hr.trans (actByAct.pass hu)
  · exact fun _ _ hu => hu.trans (of_same ⟨rfl, rfl⟩ ⟨rfl, rfl, rfl⟩ (List.append_nil _).symm rfl)

theorem skipSpeech {left taken count : Nat} (h : s.skipSpeech left taken = some (t, count)) : Pulls s t :=
  skipSpeech_preserves (P := Pulls s) (fun _ _ hr hu => hr.trans (update hu)) (actByAct.refl s) h

theorem addSide (h : s.addSide l = some t) : Pulls s t := (actByAct.passive (passive_addLane l)).trans (actByAct.pass h)

end Pulls

/-! ### Requests -/

/-- What is done to triggers by a request that has led from one session to the other: by the host, or by the actions that
    have been carried out meanwhile. -/
def Request.pulls (s t : Session) : Request → List Pull
  | .op (.world (.trigger name action)) => [⟨name, action⟩]
  | _ => s.pulls t

/-- The host does to triggers only what can be done to them. -/
def SparesTriggers (s : Session) : Request → Prop
  | .edit world => world.triggers = s.world.triggers
  | .op _ => True

theorem rewind_sameTriggers (s : Session) : SameTriggers s s.rewind := by
  obtain ⟨r, hr, hinterpreter, hworld⟩ : ∃ r : Session, s.rewind = r.advance .main ∧ r.interpreter = s.interpreter ∧
      r.world = s.world := ⟨_, rfl, rfl, rfl⟩
  rw [hr]
  exact .goOn ⟨congrArg World.triggers hworld, congrArg Interpreter.isScripted hinterpreter⟩

theorem pulls_rewind (h : t.events = s.events) : s.pulls t.rewind = [] := by
  have hlog : t.rewind.events.toList = s.events.toList ++ [.rewound] := h ▸ events_rewind
  rw [pulls_eq hlog]
  rfl

/-- Nothing is done to triggers. -/
theorem triggers_of_calm (h : t.world.triggers = s.world.triggers) (hnone : s.pulls t = []) :
    t.world.triggers = (s.world.pulled (s.pulls t)).triggers := by
  rw [hnone]
  exact h

/-- An action that is tried out is played from the start. -/
theorem playSingle_triggers {seconds : Seconds} (h : s.playSingle a seconds = some t) :
    t.world.triggers = (s.world.pulled (s.pulls t)).triggers := by
  let q : Session := { s with preview := some a }
  let r : Session := { q.rewind with running := true, paused := false }
  have hr : SameTriggers q r := (rewind_sameTriggers q).trans ⟨rfl, rfl⟩
  have hplayed : Pulls r t := by
    unfold playSingle at h
    simp only at h
    split at h
    · exact .update h
    · cases h
      exact Pulls.actByAct.refl _
  obtain ⟨log, hlog, htriggers⟩ := hplayed.log
  have hevents : t.events.toList = s.events.toList ++ .rewound :: log := by
    have hrewound : r.events.toList = s.events.toList ++ [.rewound] := events_rewind
    rw [hlog, hrewound, List.append_assoc, List.singleton_append]
  rw [pulls_eq hevents, List.filterMap_cons, hplayed.pull?, htriggers]
  exact World.triggers_pulled_congr hr.triggers

/-- A request does to triggers what it says, or what the log tells. -/
theorem respond_triggers (hspares : s.SparesTriggers request) (h : s.respond request = some t) :
    t.world.triggers = (s.world.pulled (request.pulls s t)).triggers := by
  cases request with
  | edit world =>
    cases h
    exact triggers_of_calm hspares (pulls_of_events rfl)
  | op op =>
    obtain ⟨⟨u, reply⟩, hstep, rfl⟩ := Option.map_eq_some_iff.mp h
    cases op with
    | setTopic topic =>
      cases hstep
      have hset : (s.setTopic topic).world.triggers = s.world.triggers ∧ s.pulls (s.setTopic topic) = [] := by
        unfold setTopic
        split
        · exact ⟨rfl, pulls_of_events rfl⟩
        · exact ⟨(rewind_sameTriggers _).triggers, pulls_rewind rfl⟩
      exact triggers_of_calm hset.1 hset.2
    | setRunning value | setPaused value | setAutoAdvance value | takeInfo | addActor actor | speech slot op =>
      cases hstep
      exact triggers_of_calm rfl (pulls_of_events rfl)
    | takeEvents =>
      cases hstep
      exact triggers_of_calm rfl (by simp [pulls, logged])
    | update e =>
      obtain ⟨v, hv, hreply⟩ := Option.bind_eq_some_iff.mp hstep
      cases hreply
      exact (Pulls.update hv).triggers
    | rewind =>
      cases hstep
      exact triggers_of_calm (rewind_sameTriggers s).triggers (pulls_rewind rfl)
    | advance =>
      cases hstep
      exact (Pulls.actByAct.passive (passive_advance .main)).triggers
    | fastForward =>
      obtain ⟨⟨v, count⟩, hv, hreply⟩ := Option.bind_eq_some_iff.mp hstep
      cases hreply
      exact (Pulls.skipSpeech hv).triggers
    | cancelLoop depth =>
      cases hstep
      exact (Pulls.actByAct.passive ((cancelLoop_touches depth).toAlters.passive (cancelLoop_alike depth))).triggers
    | select index =>
      cases hstep
      obtain ⟨id, halters⟩ := select_alters s index
      obtain ⟨values, halike⟩ := select_alike s index
      have hset : SameTriggers s { s with world := { s.world with values } } := ⟨rfl, rfl⟩
      exact (Pulls.of_alters (hset.trans halike.sameTriggers) halters).triggers
    | playSingle action seconds =>
      obtain ⟨v, hv, hreply⟩ := Option.bind_eq_some_iff.mp hstep
      cases hreply
      exact playSingle_triggers hv
    | addSide l =>
      obtain ⟨v, hv, hreply⟩ := Option.bind_eq_some_iff.mp hstep
      cases hreply
      exact (Pulls.addSide hv).triggers
    | removeActor name =>
      cases hstep
      exact (Pulls.of_alters (.removeActor name) (Touches.removeActor name : Touches .main s _).toAlters).triggers
    | world op =>
      cases hstep
      cases op with
      | trigger name action => rfl
      | _ =>
        exact triggers_of_calm rfl (pulls_of_events rfl)

/-- Whatever comes before a pass of a lane, the log tells what has been done to triggers. -/
theorem Due.pulls (h : Due s request r id e) : Pulls s r := by
  induction h with
  | frame _ _ _ h => exact (Pulls.aged _).trans (Pulls.actByAct.passes h)
  | added => exact Pulls.actByAct.passive (passive_addLane _)
  | started _ h htopic ih => exact ih.trans (Pulls.actByAct.started h htopic)

/-! ### Sessions that a host reaches -/

/-- The sessions between the requests of a host, each with all that has been done to triggers before. -/
inductive Traces (c : Conversation) : List Pull → Session → Prop where
  | start (interpreter : Interpreter) (options : Options) : Traces c [] (.start c interpreter options)
  | responds {history : List Pull} {s t : Session} {request : Request} (hs : Traces c history s)
      (hspares : s.SparesTriggers request) (h : s.respond request = some t) :
      Traces c (history ++ request.pulls s t) t

theorem Traces.triggers (h : Traces c history s) : s.world.triggers = (c.world.pulled history).triggers := by
  induction h with
  | start interpreter options => rfl
  | responds _ hspares h ih =>
    rw [respond_triggers hspares h, World.pulled_append]
    exact World.triggers_pulled_congr ih

theorem Traces.recalls_pulled (h : Traces c history s) (more : List Pull) :
    (s.world.pulled more).Recalls (history ++ more) := by
  have hall : (c.world.pulled (history ++ more)).Recalls (history ++ more) := World.recalls_pulled rfl _
  refine hall.congr ?_
  rw [World.pulled_append]
  exact World.triggers_pulled_congr h.triggers

/-- The triggers are what has been done to them since the conversation was loaded, by actions or by the host: a trigger is
    known if anything has been done to it, it is fired if the last thing was to fire it, and it has fired if it has been
    fired or pulsed since it was last forgotten. So it is at all times, also in the middle of a frame and whatever is done
    to triggers next, and conditions are answered accordingly. -/
theorem triggers_recall (hs : Traces c history s) :
    s.world.Recalls history ∧ (∀ more, (s.world.pulled more).Recalls (history ++ more)) ∧
      ∀ request r id e, s.Due request r id e → r.world.Recalls (history ++ s.pulls r) := by
  refine ⟨?_, hs.recalls_pulled, fun request r id e hdue => ?_⟩
  · have hnow := hs.recalls_pulled []
    rwa [List.append_nil] at hnow
  · exact (hs.recalls_pulled (s.pulls r)).congr hdue.pulls.triggers

end Session

/-- A lane rings a bell while another one pulls a rope. -/
def Document.belfry : Document where
  profiles := []
  values := .empty
  gameCommands := .empty
  files := [{
    id := "tale"
    topics := [
      { id := "tower"
        block := ⟨[{ kind := .cue (.snippet none "loft" true) }, { kind := .cue (.trigger "bell" .fire) }]⟩ },
      { id := "loft", block := ⟨[{ kind := .cue (.trigger "rope" .pulse) }]⟩ }] }]

/-- The rope is pulled in the first frame, and the bell is rung in the second one. Then the host has the rope forgotten. -/
theorem triggers_recall_belfry :
    ∃ c history s, Document.belfry.load = .ok c ∧ Session.Traces c history s ∧
      history = [⟨"rope", .pulse⟩, ⟨"bell", .fire⟩, ⟨"rope", .fullReset⟩] ∧ s.world.Recalls history ∧
      (Condition.trigger "bell" .fired).holds s.world ∧ (Condition.trigger "rope" .neverFired).holds s.world := by
  have hplayed : ∃ c, Document.belfry.load = .ok c ∧
      ((Session.start c (.scripted .zeros) {}).respond (.op (.setTopic (some ⟨0⟩)))).any fun p =>
        (p.respond (.op (.setRunning true))).any fun q => (q.respond (.op (.update 1))).any fun r =>
          (r.respond (.op (.update 1))).any fun s =>
            decide ((Session.start c (.scripted .zeros) {}).pulls p = []) && decide (p.pulls q = []) &&
              decide (q.pulls r = [⟨"rope", .pulse⟩]) && decide (r.pulls s = [⟨"bell", .fire⟩]) :=
    ⟨_, rfl, by decide +kernel⟩
  obtain ⟨c, hc, hplayed⟩ := hplayed
  simp only [Option.any_eq_true, Bool.and_eq_true, decide_eq_true_eq] at hplayed
  obtain ⟨p, hp, q, hq, r, hr, s, hs, ⟨⟨hfirst, hsecond⟩, hthird⟩, hfourth⟩ := hplayed
  have hspares (r : Session) (op : Session.Op) : r.SparesTriggers (.op op) := trivial
  have hbegins : Session.Traces c [] (.start c (.scripted .zeros) {}) := .start _ _
  have hplays := (hbegins.responds (hspares _ _) hp).responds (hspares _ _) hq
  have hrings := (hplays.responds (hspares _ _) hr).responds (hspares _ _) hs
  have htraces := hrings.responds (hspares _ (.world (.trigger "rope" .fullReset))) rfl
  simp only [Session.Request.pulls, hfirst, hsecond, hthird, hfourth, List.nil_append, List.cons_append] at htraces
  have hrecalls := (Session.triggers_recall htraces).1
  have hrung : LastFires [⟨"rope", .pulse⟩, ⟨"bell", .fire⟩, ⟨"rope", .fullReset⟩] "bell" :=
    ⟨[⟨"rope", .pulse⟩], [⟨"rope", .fullReset⟩], rfl, by decide⟩
  have hforgotten : ¬Remembers ([⟨"rope", .pulse⟩, ⟨"bell", .fire⟩] ++ [⟨"rope", .fullReset⟩]) "rope" := by
    rw [remembers_concat]
    simp
  exact ⟨c, _, _, hc, htraces, rfl, hrecalls, (hrecalls.answers "bell" .fired).mpr hrung,
    (hrecalls.answers "rope" .neverFired).mpr hforgotten⟩

end Dialogue
