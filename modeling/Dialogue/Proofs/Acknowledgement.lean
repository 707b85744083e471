import Dialogue.Player.Run
import Dialogue.Proofs.Moves

/-! What a run acknowledges. A text for the host does not say which lane it comes from, and it is the main lane that
    goes on when the text is taken. The log of a frame tells whether the main lane is held at a command then
    (`held?`); otherwise the text comes from a side lane, or the main lane has left its command since. -/

namespace Dialogue

/-- The labels of the actions that have a text for the host. -/
def announcing : List String :=
  ["actor_command", "game_command", "trigger", "actor_add", "actor_remove", "stop_conversation"]

/-- A lane carries out an action that has a text for the host. -/
def Event.Announces (id : LaneId) (e : Event) : Prop := ∃ ref, ∃ label ∈ announcing, e = .dispatched id ref label

/-- A loop of a lane is over. -/
def Event.Unwinds (id : LaneId) (e : Event) : Prop := ∃ depth, e = .loopEnded id depth ∨ e = .loopCancelled id depth

/-- The action that the main lane is held at after another event. -/
def Event.held (before : Option ActionRef) : Event → Option ActionRef
  | .dispatched .main ref label => if label ∈ announcing then some ref else none
  | .loopEnded .main _ | .loopCancelled .main _ => none
  | _ => before

/-- An event after which the main lane is held as before. -/
def Event.Keeps (e : Event) : Prop := ∀ before, e.held before = before

theorem Action.label_mem_announcing {a : Action ListId} :
    a.label ∈ announcing ↔ a.isCommand = true ∨ a.kind = .cue .stopConversation := by
  unfold Action.isCommand Action.label
  cases hkind : a.kind with
  | cue cue => cases cue <;> simp [Kind.label, Cue.label, announcing]
  | _ => simp [Kind.label, announcing]

theorem Action.ne_stop_of_isJump {a : Action ListId} (h : a.isJump = false) : a.kind ≠ .cue .stopConversation := by
  intro hkind
  simp [Action.isJump, hkind] at h

theorem Action.announces_of_isCommand {a : Action ListId} (h : a.isCommand) (id : LaneId) (ref : ActionRef) :
    (Event.dispatched id ref a.label).Announces id := ⟨ref, a.label, label_mem_announcing.mpr (.inl h), rfl⟩

theorem Action.announces_of_stop {a : Action ListId} (h : a.kind = .cue .stopConversation) (id : LaneId)
    (ref : ActionRef) : (Event.dispatched id ref a.label).Announces id :=
  ⟨ref, a.label, label_mem_announcing.mpr (.inr h), rfl⟩

namespace Event
variable {e : Event} {log : List Event}

theorem keeps_of_lane? (h : e.lane? ≠ some .main) : e.Keeps := by
  intro before
  unfold held
  split <;> first | rfl | exact absurd rfl h

theorem not_announces_of_held (h : e.held none = none) : ¬e.Announces .main := by
  rintro ⟨ref, label, hlabel, rfl⟩
  rw [held, if_pos hlabel] at h
  cases h

theorem held_of_unwinds (h : e.Unwinds .main) (before : Option ActionRef) : e.held before = none := by
  rcases h with ⟨depth, rfl | rfl⟩ <;> rfl

theorem foldl_held {before : Option ActionRef} (h : ∀ e ∈ log, e.held before = before) :
    log.foldl held before = before := by
  induction log with
  | nil => rfl
  | cons e log ih =>
    rw [List.foldl_cons, h e List.mem_cons_self]
    exact ih fun e' he' => h e' (List.mem_cons_of_mem _ he')

end Event

namespace Session
variable {s t : Session} {id : LaneId} {cursors : List Cursor} {now : Option (List Cursor)} {log : List Event}
variable {ref : ActionRef} {a : Action ListId}

/-- The action that the main lane is held at, as the log tells: the last one that it has carried out, if it has a text
    for the host and no loop of the lane has been over since. -/
def held? (s : Session) : Option ActionRef := s.events.toList.foldl Event.held none

/-- The main lane has told something, and a loop of it has been over since. -/
def Unwound (s : Session) : Prop := ∃ e e', [e, e'].Sublist s.events.toList ∧ e.Announces .main ∧ e'.Unwinds .main

/-- The main lane stands at a command that it has carried out, or its conversation is stopped. -/
def Stays (s : Session) (ref : ActionRef) : Prop :=
  (∃ cursors a, s.At .main cursors ref a ∧ a.isCommand = true ∧ .dispatched .main ref a.label ∈ s.events.toList) ∨
  ∃ top, s.cursors? .main = some [top] ∧ top.action? = none

/-- The log tells where the main lane is held. -/
structure Holds (s : Session) : Prop where
  stays : ∀ ref, s.held? = some ref → s.Stays ref
  told : ∀ e ∈ s.events.toList, e.Announces .main → s.held?.isSome ∨ s.Unwound

/-! ### What the log tells -/

theorem Effect.held? (h : Effect id now log s t) : t.held? = log.foldl Event.held s.held? := by
  rw [Session.held?, h.log, List.foldl_append]
  rfl

theorem Unwound.later (h : s.Unwound) (hlog : s.events.toList <+: t.events.toList) : t.Unwound := by
  obtain ⟨e, e', hsub, hrest⟩ := h
  exact ⟨e, e', hsub.trans hlog.sublist, hrest⟩

/-- A lane that is held is not about to do anything else. -/
theorem Stays.at_ (h : s.Stays ref) {ref' : ActionRef} (hat : s.At .main cursors ref' a) :
    ref' = ref ∧ a.isCommand = true ∧ .dispatched .main ref a.label ∈ s.events.toList := by
  rcases h with ⟨cursors', a', hat', hcommand, hnoted⟩ | ⟨top, hlane, hend⟩
  · obtain rfl := Option.some.inj (hat.lane.symm.trans hat'.lane)
    obtain rfl := Option.some.inj (hat.next.symm.trans hat'.next)
    obtain rfl := Option.some.inj (hat.action.symm.trans hat'.action)
    exact ⟨rfl, hcommand, hnoted⟩
  · obtain rfl := Option.some.inj (hat.lane.symm.trans hlane)
    cases hat.next.symm.trans hend

theorem Holds.held?_eq_none (hs : s.Holds) (h : ∀ ref, ¬s.Stays ref) : s.held? = none := by
  cases hheld : s.held? with
  | none => rfl
  | some ref => exact absurd (hs.stays ref hheld) (h ref)

theorem At.not_stays (hat : s.At .main cursors ref a) (hfree : a.isCommand = false) (ref' : ActionRef) :
    ¬s.Stays ref' := by
  intro hstays
  obtain ⟨-, hcommand, -⟩ := hstays.at_ hat
  rw [hfree] at hcommand
  cases hcommand

theorem Holds.of_silent (h : ∀ e ∈ s.events.toList, e.held none = none) : s.Holds := by
  refine ⟨fun ref hsome => ?_, fun e he hannounces => absurd hannounces (Event.not_announces_of_held (h e he))⟩
  cases (Event.foldl_held h).symm.trans hsome

theorem Holds.keep (hs : s.Holds) (h : Effect id now log s t) (hmain : t.cursors? .main = s.cursors? .main)
    (hlog : ∀ e ∈ log, e.Keeps) : t.Holds := by
  have hheld : t.held? = s.held? := h.held?.trans (Event.foldl_held fun e he => hlog e he _)
  refine ⟨fun ref hsome => ?_, fun e he hannounces => ?_⟩
  · rcases hs.stays ref (hheld ▸ hsome) with ⟨cursors, a, hat, hcommand, hnoted⟩ | ⟨top, hlane, hend⟩
    · refine .inl ⟨cursors, a, ⟨hmain.trans hat.lane, hat.next, ?_⟩, hcommand, h.since.log.subset hnoted⟩
      rw [h.script.action?]
      exact hat.action
    · exact .inr ⟨top, hmain.trans hlane, hend⟩
  · rw [h.log, List.mem_append] at he
    rcases he with hold | hnew
    · rw [hheld]
      exact (hs.told e hold hannounces).imp_right fun hunwound => hunwound.later h.since.log
    · exact absurd hannounces (Event.not_announces_of_held (hlog e hnew none))

/-- The main lane is not held any more, and has told nothing meanwhile. -/
theorem Holds.free (h : Effect id now log s t) (hnone : t.held? = none) (hlog : ∀ e ∈ log, ¬e.Announces .main)
    (htold : ∀ e ∈ s.events.toList, e.Announces .main → t.Unwound) : t.Holds := by
  refine ⟨fun ref hsome => ?_, fun e he hannounces => .inr ?_⟩
  · rw [hnone] at hsome
    cases hsome
  · rw [h.log, List.mem_append] at he
    rcases he with hold | hnew
    · exact htold e hold hannounces
    · exact absurd hannounces (hlog e hnew)

theorem Holds.pass (hs : s.Holds) (h : Effect id now log s t) (hnone : s.held? = none)
    (hlog : ∀ e ∈ log, e.held none = none) : t.Holds := by
  have hheld : t.held? = none := by rw [h.held?, hnone, Event.foldl_held hlog]
  refine .free h hheld (fun e he => Event.not_announces_of_held (hlog e he)) fun e he hannounces => ?_
  rcases hs.told e he hannounces with hsome | hunwound
  · rw [hnone] at hsome
    cases hsome
  · exact hunwound.later h.since.log

theorem Holds.unwind {e' : Event} (h : Effect id now (e' :: log) s t) (hunwinds : e'.Unwinds .main)
    (hlog : ∀ e ∈ log, e.held none = none) : t.Holds := by
  have hheld : t.held? = none := by
    rw [h.held?, List.foldl_cons, Event.held_of_unwinds hunwinds, Event.foldl_held hlog]
  refine .free h hheld (fun e he => ?_) fun e he hannounces => ?_
  · rcases List.mem_cons.mp he with rfl | hrest
    · exact Event.not_announces_of_held (Event.held_of_unwinds hunwinds none)
    · exact Event.not_announces_of_held (hlog e hrest)
  · refine ⟨e, e', ?_, hannounces, hunwinds⟩
    rw [h.log]
    exact (List.singleton_sublist.mpr he).append (List.singleton_sublist.mpr List.mem_cons_self)

theorem Holds.announce {label : String} (h : Effect .main now [.dispatched .main ref label] s t)
    (hlabel : label ∈ announcing) (hstays : t.Stays ref) : t.Holds := by
  have hheld : t.held? = some ref := by rw [h.held?, List.foldl_cons, List.foldl_nil, Event.held, if_pos hlabel]
  refine ⟨fun ref' hsome => ?_, fun _ _ _ => .inl (by rw [hheld]; rfl)⟩
  rw [hheld] at hsome
  cases hsome
  exact hstays

/-! ### What every turn keeps -/

theorem held_leaving {e : Event} (h : e ∈ leaving id cursors) : e.held none = none := by
  rw [mem_leaving h]
  rfl

theorem held_dispatched (hfree : a.isCommand = false) (hstop : a.kind ≠ .cue .stopConversation) :
    (Event.dispatched id ref a.label).held none = none := by
  cases id with
  | main =>
    have hlabel : a.label ∉ announcing := by simp [Action.label_mem_announcing, hfree, hstop]
    exact if_neg hlabel
  | side => rfl

/-- The main lane carries out an action without a text for the host. -/
theorem Holds.carry (hs : s.Holds) (hat : s.At .main cursors ref a) (hfree : a.isCommand = false)
    (hstop : a.kind ≠ .cue .stopConversation) (h : Effect id now (.dispatched .main ref a.label :: log) s t)
    (hlog : ∀ e ∈ log, e.held none = none) : t.Holds :=
  hs.pass h (hs.held?_eq_none (hat.not_stays hfree)) (List.forall_mem_cons.mpr ⟨held_dispatched hfree hstop, hlog⟩)

theorem Turn.holds (h : Turn id s t) (hauto : s.options.autoAdvance = false) (hs : s.Holds) : t.Holds := by
  by_cases hid : id = .main
  case neg =>
    obtain ⟨now, log, heffect, hlog⟩ := h.about
    refine hs.keep heffect (heffect.others .main (Ne.symm hid)) fun e he => Event.keeps_of_lane? fun hmain => ?_
    rcases hlog e he with hsome | ⟨hnone, -⟩
    · exact hid (Option.some.inj (hsome.symm.trans hmain))
    · cases hnone.symm.trans hmain
  subst hid
  cases h with
  | calm h | refused h => exact hs.keep h h.lane nofun
  | actorRemoved h | ended _ h => exact hs.keep h h.lane (by simp [Event.Keeps, Event.held])
  | rooted _ hempty h =>
    refine hs.pass h (hs.held?_eq_none ?_) nofun
    rintro ref (⟨cursors, a, hat, -⟩ | ⟨top, hlane, -⟩)
    · exact absurd ((Option.some.inj hat.lane).symm.trans hempty) hat.ne_nil
    · cases (Option.some.inj hlane).symm.trans hempty
  | closed _ _ h => exact .unwind h ⟨_, .inl rfl⟩ nofun
  | @noted cursors ref a hat hplain h =>
    cases hcommand : a.isCommand with
    | true =>
      have hat' : t.At .main cursors ref a := h.at_ hat
      exact .announce h (Action.label_mem_announcing.mpr (.inl hcommand))
        (.inl ⟨cursors, a, hat', hcommand, by simp [h.log]⟩)
    | false => exact hs.carry hat hcommand (Action.ne_stop_of_isJump hplain) h nofun
  | moved hlane hgo h =>
    refine hs.pass h (hs.held?_eq_none ?_) fun e he => held_leaving he
    rcases hgo with ⟨ref, a, hat, -, hpassed⟩ | ⟨outer, top, rfl, hne, hend, -⟩
    · refine hat.not_stays ?_
      cases hcommand : a.isCommand with
      | false => rfl
      | true => cases hauto.symm.trans (hpassed hcommand)
    · rintro ref (⟨cursors, a, hat, -⟩ | ⟨top', hlane', -⟩)
      · obtain rfl := Option.some.inj (hat.lane.symm.trans hlane)
        have hnext := hat.next
        rw [Lane.action?_concat, hend] at hnext
        cases hnext
      · have hlength := congrArg List.length (Option.some.inj (hlane'.symm.trans hlane))
        have hpos := List.length_pos_iff.mpr hne
        simp only [List.length_append, List.length_singleton] at hlength
        omega
  | entered hat hplain hfree _ _ h =>
    exact hs.carry hat hfree (Action.ne_stop_of_isJump hplain) h (by simp [Event.held])
  | asked hid h =>
    obtain ⟨_, _, _, hkind, -⟩ := h.kind
    have heffect := h.effect
    rw [hid] at heffect
    exact hs.carry (hid ▸ h.at_) (by simp [Action.isCommand, hkind]) (by simp [hkind]) heffect (by simp [Event.held])
  | skipped h =>
    obtain ⟨_, _, _, hkind, -⟩ := h.kind
    refine hs.carry h.at_ (by simp [Action.isCommand, hkind]) (by simp [hkind]) h.effect ?_
    exact List.forall_mem_cons.mpr ⟨rfl, fun e he => held_leaving he⟩
  | held hat _ _ _ h => exact hs.keep h (h.lane.trans hat.lane.symm) nofun
  | stopped hat hkind h =>
    obtain ⟨root, rest, rfl⟩ := List.exists_cons_of_ne_nil hat.ne_nil
    have hlane : t.cursors? .main = some [root.forwardEnd] := h.lane
    exact .announce h (Action.label_mem_announcing.mpr (.inr hkind))
      (.inr ⟨_, hlane, Cursor.action?_forwardEnd⟩)
  | topicStopped hat hkind h =>
    exact hs.carry hat (by simp [Action.isCommand, hkind]) (by simp [hkind]) h fun e he => held_leaving he
  | added hid => cases hid
  | removed hid => cases hid

theorem Turns.holds (h : Turns s t) (hauto : s.options.autoAdvance = false) (hs : s.Holds) : t.Holds := by
  induction h with
  | refl => exact hs
  | tail hturns hturn ih =>
    obtain ⟨_, _, hturn⟩ := hturn
    exact hturn.holds ((congrArg Options.autoAdvance (Course.since hturns).script.options).trans hauto) ih

/-- A text for the host comes from an action, as the log tells, while the session is running. -/
def Told (s : Session) : Prop :=
  s.info = none ∨ s.running = false ∨ ∃ id, ∃ e ∈ s.events.toList, e.Announces id

theorem Told.later (hs : s.Told) (hinfo : t.info = s.info) (hrunning : t.running = s.running)
    (hlog : s.events.toList <+: t.events.toList) : t.Told := by
  rcases hs with hnone | hstopped | ⟨id, e, he, hannounces⟩
  · exact .inl (hinfo.trans hnone)
  · exact .inr (.inl (hrunning.trans hstopped))
  · exact .inr (.inr ⟨id, e, hlog.subset he, hannounces⟩)

theorem Turn.told (h : Turn id s t) (hs : s.Told) : t.Told := by
  obtain ⟨now, log, heffect⟩ := h.effect
  have hlog := heffect.since.log
  cases h with
  | calm _ hq | rooted _ _ _ hq | closed _ _ _ hq | noted _ _ _ hq | actorRemoved _ hq | moved _ _ _ hq
  | entered _ _ _ _ _ _ hq | topicStopped _ _ _ hq | added _ _ _ hq | removed _ _ _ hq =>
    exact hs.later hq.info hq.running hlog
  | asked _ h => exact hs.later h.info h.running hlog
  | skipped h => exact hs.later h.info h.running hlog
  | held _ hcommand _ hnoted =>
    exact .inr (.inr ⟨id, _, hlog.subset hnoted, Action.announces_of_isCommand hcommand _ _⟩)
  | refused _ _ hrunning | ended _ _ _ _ hrunning => exact .inr (.inl hrunning)
  | @stopped _ ref _ _ hkind h => exact .inr (.inr ⟨id, _, by simp [h.log], Action.announces_of_stop hkind id ref⟩)

theorem Turns.told (h : Turns s t) (hs : s.Told) : t.Told := by
  induction h with
  | refl => exact hs
  | tail _ hturn ih =>
    obtain ⟨_, _, hturn⟩ := hturn
    exact hturn.told ih

/-! ### Frames -/

/-- An answer on the main lane ends a loop of it, and one on another lane leaves the main lane as it is. -/
theorem select_effect (s : Session) (index : Nat) :
    ∃ id now log, Effect id now log s (s.select index).1 ∧ (s.select index).1.info = s.info ∧
      (s.select index).1.running = s.running ∧
      ((s.select index).1.cursors? .main = s.cursors? .main ∧ (∀ e ∈ log, e.Keeps) ∨
        ∃ e' log', log = e' :: log' ∧ e'.Unwinds .main ∧ ∀ e ∈ log', e.Keeps) := by
  have hclear : ∀ id, Effect id (s.cursors? id) [] s { s with choice := none } := fun id =>
    .calm id ⟨rfl, rfl, rfl, rfl, fun h => h⟩ rfl rfl rfl rfl
  obtain hsame | ⟨k, -, ⟨-, hnone⟩ | ⟨o, u, hu, hanswered⟩⟩ := select_cases s index
  · rw [hsame]
    exact ⟨.main, _, _, .calm .main (.refl s) rfl rfl rfl rfl, rfl, rfl, .inl ⟨rfl, nofun⟩⟩
  · rw [hnone]
    exact ⟨_, _, _, hclear .main, rfl, rfl, .inl ⟨rfl, nofun⟩⟩
  · rw [hanswered]
    obtain ⟨cursors, -, -, hunwind, hquiet⟩ := unwind_effect hu
    obtain ⟨inner, ⟨-, hanswer⟩, hquiet'⟩ := answer_effect o hunwind.lane
    have heffect := (hclear k.lane).trans (hunwind.trans hanswer)
    have hrest : ∀ e ∈ .selected o.option :: inner.toList.map fun cur => Event.entered k.lane cur.list, e.Keeps := by
      refine List.forall_mem_cons.mpr ⟨fun _ => rfl, fun e he => ?_⟩
      obtain ⟨cur, -, rfl⟩ := List.mem_map.mp he
      exact fun _ => rfl
    refine ⟨_, _, _, heffect, hquiet'.info.trans hquiet.info, hquiet'.running.trans hquiet.running, ?_⟩
    by_cases hid : k.lane = .main
    · exact .inr ⟨_, _, rfl, ⟨k.depth - 1, .inr (by rw [hid])⟩, hrest⟩
    · have hother : (Event.loopCancelled k.lane (k.depth - 1)).Keeps :=
        Event.keeps_of_lane? fun hmain => hid (Option.some.inj hmain)
      exact .inl ⟨heffect.others .main (Ne.symm hid), List.forall_mem_cons.mpr ⟨hother, hrest⟩⟩

theorem info_advance : (s.advance id).info = s.info := by
  by_cases hscript : s.hasScript
  · exact (quiet_advance hscript).info
  · simp [Session.advance, hscript]

end Session

namespace Run
variable {c : Conversation} {l : Limits} {r p : Run}

/-- A frame up to where texts are acknowledged. The log of the session is that of this frame. -/
def shown (l : Limits) (r : Run) : Option Run := do
  let s ← r.session.update l.step
  (if l.fastForward then (·.1) <$> s.fastForward else some s).map fun s =>
    { r with session := s, frame := r.frame + 1 }.answerChoice

theorem next_eq : r.next l = (r.shown l).map fun p => p.acknowledge.collect := by
  unfold next shown
  cases r.session.update l.step with
  | none => rfl
  | some s =>
    cases hspeech : l.fastForward with
    | false => simp
    | true => cases hskip : s.fastForward <;> simp [hskip]

/-- The frames of a run of a topic. -/
inductive Played (c : Conversation) (l : Limits) : Run → Prop where
  | start (chance : Chance) (options : Options) (t : TopicId) :
      Played c l (.start { (Session.start c (.scripted chance) options).setTopic (some t) with running := true } l)
  | next {r r' : Run} (hr : Played c l r) (hrunning : r.session.running) (h : r.next l = some r') : Played c l r'

theorem shown_holds (hs : r.session.Sound) (hholds : r.session.Holds) (hinfo : r.session.info = none)
    (h : r.shown l = some p) :
    p.session.Sound ∧ p.session.Told ∧ (p.session.options.autoAdvance = false → p.session.Holds) := by
  obtain ⟨s, hupdate, hrest⟩ := Option.bind_eq_some_iff.mp h
  obtain ⟨t, hskip, rfl⟩ := Option.map_eq_some_iff.mp hrest
  have hframe := Session.update_turns hs hupdate
  have hturns : Session.Turns r.session t := by
    split at hskip
    · obtain ⟨⟨t, count⟩, hfast, rfl⟩ := Option.map_eq_some_iff.mp hskip
      exact hframe.trans (Session.skipSpeech_turns _ _ (hs.later hframe.since) hfast)
    · cases hskip
      exact hframe
  have hsound : t.Sound := hs.later hturns.since
  have htold : t.Told := Session.Turns.told hturns (.inl hinfo)
  have hheld : t.options.autoAdvance = false → t.Holds := fun hhold =>
    Session.Turns.holds hturns (by rw [← hturns.since.script.options]; exact hhold) hholds
  unfold answerChoice
  split
  · exact ⟨hsound, htold, hheld⟩
  · rename_i k _
    obtain ⟨id, now, log, heffect, hsame, hrunning, hcases⟩ := Session.select_effect t
      (if r.choices.headD 0 < k.offers.length then r.choices.headD 0 else 0)
    refine ⟨hsound.later heffect.since, htold.later hsame hrunning heffect.since.log, fun hhold => ?_⟩
    have hheld' : t.Holds := hheld (by rw [← heffect.script.options]; exact hhold)
    rcases hcases with ⟨hmain, hlog⟩ | ⟨e', log', rfl, hunwinds, hlog⟩
    · exact hheld'.keep heffect hmain hlog
    · exact .unwind heffect hunwinds fun e he => hlog e he none

theorem acknowledge_sound (hs : p.session.Sound) :
    p.acknowledge.collect.session.Sound ∧ p.acknowledge.collect.session.info = none := by
  unfold acknowledge
  split
  · rename_i hnone
    exact ⟨⟨hs.scripted, hs.numbered⟩, hnone⟩
  · have htaken : ({ p.session with info := none } : Session).Sound := ⟨hs.scripted, hs.numbered⟩
    simp only
    split
    · have hgone := Session.Moves.sound (Session.advance_moves { p.session with info := none }) htaken
      exact ⟨⟨hgone.scripted, hgone.numbered⟩, Session.info_advance⟩
    · exact ⟨⟨hs.scripted, hs.numbered⟩, rfl⟩

/-- Before a frame there is no text for the host, and nothing that the main lane is held at. -/
theorem Played.sound (h : Played c l r) : r.session.Sound ∧ r.session.Holds ∧ r.session.info = none := by
  induction h with
  | start chance options t =>
    let chosen : Session := { Session.start c (.scripted chance) options with topic := some t, preview := none }
    have hchosen : (Session.start c (.scripted chance) options).setTopic (some t) = chosen.rewind := if_neg nofun
    have hfresh : chosen.Sound := ⟨⟨chance, rfl⟩, fun n l hmem => nomatch hmem⟩
    have hsound := Session.Move.sound (Session.rewind_move rfl rfl rfl) hfresh
    have hlog : chosen.rewind.events.toList = [.rewound] := Session.events_rewind
    rw [hchosen]
    refine ⟨⟨hsound.scripted, hsound.numbered⟩, .of_silent ?_, Session.info_advance⟩
    exact hlog ▸ List.forall_mem_cons.mpr ⟨rfl, nofun⟩
  | next hr _ h ih =>
    rw [next_eq] at h
    obtain ⟨p, hp, rfl⟩ := Option.map_eq_some_iff.mp h
    obtain ⟨hsound, -, -⟩ := shown_holds ih.1 ih.2.1 ih.2.2 hp
    obtain ⟨hsound', hinfo⟩ := acknowledge_sound hsound
    exact ⟨hsound', .of_silent nofun, hinfo⟩

/-- When a text is acknowledged, the main lane goes on after the command that it is held at, if the log of the frame
    tells that it is held. Otherwise the text comes from a side lane, or the main lane has left its command since. -/
theorem acknowledges_dispatched {ref : ActionRef} (h : Played c l r) (hp : r.shown l = some p)
    (hinfo : p.session.info.isSome) (hrunning : p.session.running = true)
    (hhold : p.session.options.autoAdvance = false) (hnext : p.session.main.action? = some ref) :
    p.acknowledge.session = { p.session with info := none }.advance .main ∧
      (p.session.held? = some ref ∧ (∃ a, p.session.action? ref = some a ∧ a.isCommand = true ∧
          .dispatched .main ref a.label ∈ p.session.events.toList) ∨
        p.session.held? = none ∧
          ((∃ n, ∃ e ∈ p.session.events.toList, e.Announces (.side n)) ∨ p.session.Unwound)) := by
  obtain ⟨hsound, hholds, hnone⟩ := h.sound
  obtain ⟨-, htold, hheld⟩ := shown_holds hsound hholds hnone hp
  obtain ⟨hstays, hsince⟩ := hheld hhold
  obtain ⟨text, htext⟩ := Option.isSome_iff_exists.mp hinfo
  refine ⟨by simp [acknowledge, htext, hrunning, hhold], ?_⟩
  cases hheld? : p.session.held? with
  | some ref' =>
    rcases hstays ref' hheld? with ⟨cursors, a, hat, hcommand, hnoted⟩ | ⟨top, hlane, hend⟩
    · have hsame : p.session.main.cursors = cursors := Option.some.inj hat.lane
      have hnext' : (Lane.mk p.session.main.cursors true 0).action? = some ref' := hsame ▸ hat.next
      obtain rfl : ref' = ref := Option.some.inj (hnext'.symm.trans hnext)
      exact .inl ⟨rfl, a, hat.action, hcommand, hnoted⟩
    · have hsame : p.session.main.cursors = [top] := Option.some.inj hlane
      have hend' : (Lane.mk p.session.main.cursors true 0).action? = none := hsame ▸ hend
      cases hend'.symm.trans hnext
  | none =>
    refine .inr ⟨rfl, ?_⟩
    rcases htold with hgone | hstopped | ⟨id, e, he, hannounces⟩
    · rw [hgone] at hinfo
      cases hinfo
    · cases hstopped.symm.trans hrunning
    · cases id with
      | side n => exact .inl ⟨n, e, he, hannounces⟩
      | main =>
        rcases hsince e he hannounces with hsome | hunwound
        · rw [hheld?] at hsome
          cases hsome
        · exact .inr hunwound

theorem exists_shown {d : Document} {chance : Chance} {options : Options} {t : TopicId} {p : Run → Bool}
    (h : ∃ c, d.load = .ok c ∧ ((Run.start
      { (Session.start c (.scripted chance) options).setTopic (some t) with running := true } l).shown l).any p) :
    ∃ c r q, d.load = .ok c ∧ Played c l r ∧ r.shown l = some q ∧ p q := by
  obtain ⟨c, hc, hshown⟩ := h
  obtain ⟨q, hq, hp⟩ := (Option.any_eq_true _ _).mp hshown
  exact ⟨c, _, q, hc, .start chance options t, hq, hp⟩

end Run

/-- A door that a side lane has the host open, and then the main lane. -/
def Document.doors : Document where
  profiles := []
  values := .empty
  gameCommands := .empty
  files := [{
    id := "tale"
    topics := [
      { id := "walk"
        block := ⟨[
          { kind := .cue (.snippet none "door" true) },
          { kind := .cue (.setVariable "done" ⟨.set, ⟨1, none⟩⟩), delay := 1 }]⟩ },
      { id := "door", block := ⟨[{ kind := .cue (.gameCommand "open") }]⟩ }] }]

theorem acknowledges_dispatched_doors :
    ∃ c r p, Document.doors.load = .ok c ∧ Run.Played c ⟨10, 1, false, []⟩ r ∧ r.shown ⟨10, 1, false, []⟩ = some p ∧
      p.session.info.isSome ∧ p.session.running = true ∧ p.session.options.autoAdvance = false ∧
      p.session.main.action? = some ⟨.script ⟨1⟩, 0⟩ ∧
      p.acknowledge.session = { p.session with info := none }.advance .main ∧
      (p.session.held? = some ⟨.script ⟨1⟩, 0⟩ ∧ (∃ a, p.session.action? ⟨.script ⟨1⟩, 0⟩ = some a ∧
          a.isCommand = true ∧ .dispatched .main ⟨.script ⟨1⟩, 0⟩ a.label ∈ p.session.events.toList) ∨
        p.session.held? = none ∧
          ((∃ n, ∃ e ∈ p.session.events.toList, e.Announces (.side n)) ∨ p.session.Unwound)) := by
  have hshown : ∃ c, Document.doors.load = .ok c ∧
      ((Run.start
        { (Session.start c (.scripted .zeros) { autoAdvance := false }).setTopic (some ⟨1⟩) with running := true }
        ⟨10, 1, false, []⟩).shown ⟨10, 1, false, []⟩).any fun p =>
          p.session.info.isSome && p.session.running && !p.session.options.autoAdvance &&
            decide (p.session.main.action? = some ⟨.script ⟨1⟩, 0⟩) :=
    ⟨_, rfl, by decide +kernel⟩
  obtain ⟨c, r, p, hc, hplayed, hp, hall⟩ := Run.exists_shown hshown
  simp only [Bool.and_eq_true, Bool.not_eq_true', decide_eq_true_eq, and_assoc] at hall
  obtain ⟨hinfo, hrunning, hhold, hnext⟩ := hall
  exact ⟨c, r, p, hc, hplayed, hp, hinfo, hrunning, hhold, hnext,
    Run.acknowledges_dispatched hplayed hp hinfo hrunning hhold hnext⟩

/-- The text of the side lane is acknowledged, and the main lane goes on past an action whose time has not come. -/
theorem acknowledges_undispatched_doors :
    ∃ c r p ref, Document.doors.load = .ok c ∧ Run.Played c ⟨10, 1, false, []⟩ r ∧
      r.shown ⟨10, 1, false, []⟩ = some p ∧ p.session.info.isSome ∧ p.session.running = true ∧
      p.session.options.autoAdvance = false ∧ p.session.main.action? = some ref ∧
      (∀ label, .dispatched .main ref label ∉ p.session.events.toList) ∧ p.acknowledge.session.main.action? = none := by
  have hshown : ∃ c, Document.doors.load = .ok c ∧
      ((Run.start
        { (Session.start c (.scripted .zeros) { autoAdvance := false }).setTopic (some ⟨0⟩) with running := true }
        ⟨10, 1, false, []⟩).shown ⟨10, 1, false, []⟩).any fun p =>
          p.session.info.isSome && p.session.running && !p.session.options.autoAdvance &&
            decide (p.session.main.action? = some ⟨.script ⟨0⟩, 1⟩) &&
            p.session.events.toList.all (fun
              | .dispatched _ ref _ => decide (ref ≠ ⟨.script ⟨0⟩, 1⟩)
              | _ => true) &&
            decide (p.acknowledge.session.main.action? = none) :=
    ⟨_, rfl, by decide +kernel⟩
  obtain ⟨c, r, p, hc, hplayed, hp, hall⟩ := Run.exists_shown hshown
  simp only [Bool.and_eq_true, Bool.not_eq_true', decide_eq_true_eq, and_assoc] at hall
  obtain ⟨hinfo, hrunning, hhold, hnext, hlog, hpast⟩ := hall
  refine ⟨c, r, p, _, hc, hplayed, hp, hinfo, hrunning, hhold, hnext, fun label hmem => ?_, hpast⟩
  have hother := List.all_eq_true.mp hlog _ hmem
  simp at hother

end Dialogue
