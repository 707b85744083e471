import Dialogue.Proofs.Clocks

/-! What the requests of a host are made of, beat by beat. Whatever a host wants, unless it answers a choice or takes the
    log, single things happen to the lanes one after the other (`respond_beats`), also before each pass that the request
    brings about (`Due.beats`). So what every beat keeps holds of all sessions that a host reaches (`Reaches.keeps`). -/

namespace Dialogue
namespace Session
variable {c : Conversation} {r s t u : Session} {id : LaneId} {l : Lane} {e : Seconds} {ref : ActionRef}
variable {a : Action ListId} {request : Request} {visits : List (LaneId × Seconds)}

/-! ### Single beats -/

theorem lane?_of_addLane {l₀ : Lane} (h : (s.addLane l₀).lane? id = some l) : s.lane? id = some l ∨ l = l₀ := by
  by_cases hid : id = .side s.nextSide
  · subst hid
    rw [lane?, addLane, record, List.lookup_append, Option.or_eq_some_iff] at h
    refine h.imp (fun h => h) fun h => ?_
    simpa using h.2.symm
  · rw [lane?_addLane_of_ne hid] at h
    exact .inl h

theorem lane?_of_removeLane {n : Nat} (h : (s.removeLane n).lane? id = some l) : s.lane? id = some l := by
  cases id with
  | main => exact h
  | side m =>
    by_cases hm : m = n
    · subst hm
      cases (lookup_filter_self m s.sides).symm.trans h
    · exact (lookup_filter_of_ne hm s.sides).symm.trans h

/-- A lane that goes on at the end of its innermost list. -/
theorem advance_of_leaves (hscript : s.hasScript) (hl : s.lane? id = some l) (hleft : l.advance.2 = true) :
    (s.advance id).events.toList = s.events.toList ++ [.left id] ∧ (s.advance id).lane? id = some l.advance.1 ∧
      ∀ other, other ≠ id → (s.advance id).lane? other = s.lane? other := by
  obtain ⟨outer, below, top, hcursors, -⟩ := Lane.exists_of_leaves hleft
  have hne : l.cursors ≠ [] := by simp [hcursors]
  rw [advance_of_ne_nil hscript hl hne, hleft, if_pos rfl]
  refine ⟨?_, lane?_record_changeLane hl _ _, fun other hother => ?_⟩
  · cases id <;> simp [record, changeLane]
  · have hsame := lane?_changeLane_of_ne (s := s) (f := fun _ => l.advance.1) hother
    cases other <;> exact hsame

theorem Beat.lists (h : Beat s t) : SameLists s t := by
  cases h with
  | still hlists => exact hlists
  | @changed id f hf h => exact h ▸ (Touches.change hf).lists
  | @left id l hscript hl hleft h => exact h ▸ (Touches.advance : Touches id s _).lists
  | dispatched _ _ _ h | added h | removed h => exact h ▸ ⟨rfl, rfl, rfl⟩

/-- A beat makes one change at most to a lane that has been there before; others are at the start of a topic. -/
theorem Beat.lane {l' : Lane} (h : Beat s t) (hl' : t.lane? id = some l') :
    (∃ l, s.lane? id = some l ∧ Relation.ReflGen s.LaneChange l l') ∨
      ∃ topic parent, l' = s.topicLane topic parent := by
  cases h with
  | still _ hlanes => exact .inl ⟨l', hlanes ▸ hl', .refl⟩
  | @changed other f hf h =>
    subst h
    by_cases hid : id = other
    · subst hid
      rw [lane?_changeLane_self] at hl'
      obtain ⟨l, hl, rfl⟩ := Option.map_eq_some_iff.mp hl'
      exact .inl ⟨l, hl, .single (hf l hl)⟩
    · rw [lane?_changeLane_of_ne hid] at hl'
      exact .inl ⟨l', hl', .refl⟩
  | @left other l hscript hl hleft h =>
    subst h
    obtain ⟨-, hgone, hothers⟩ := advance_of_leaves hscript hl hleft
    by_cases hid : id = other
    · subst hid
      obtain rfl := Option.some.inj (hgone.symm.trans hl')
      exact .inl ⟨l, hl, .single (.advanced l)⟩
    · exact .inl ⟨l', (hothers id hid).symm.trans hl', .refl⟩
  | dispatched _ _ _ h =>
    subst h
    exact .inl ⟨l', by cases id <;> exact hl', .refl⟩
  | @added topic parent h =>
    subst h
    rcases lane?_of_addLane hl' with hold | hnew
    · exact .inl ⟨l', hold, .refl⟩
    · exact .inr ⟨topic, parent, hnew⟩
  | removed h =>
    subst h
    exact .inl ⟨l', lane?_of_removeLane hl', .refl⟩

theorem Beat.played (h : Beat s t) :
    t.lastPlayed = s.lastPlayed ∨ ∃ id l ref, s.lane? id = some l ∧ l.action? = some ref ∧
      t.lastPlayed = some { topic := l.topic?, action := ref } := by
  cases h with
  | still _ _ hplayed => exact .inl hplayed
  | @changed id f hf h => exact .inl (h ▸ (Touches.change hf).played)
  | @left id l hscript hl hleft h => exact .inl (h ▸ (Touches.advance : Touches id s _).played)
  | @dispatched id l ref a hl hnext ha h => exact .inr ⟨id, l, ref, hl, hnext, h ▸ rfl⟩
  | added h | removed h => exact .inl (h ▸ rfl)

/-- What a beat logs: that a list is left or an action is carried out, or neither. -/
theorem Beat.log (h : Beat s t) :
    ∃ log, t.events.toList = s.events.toList ++ log ∧
      ((∀ event ∈ log, event.IsAside) ∨
        (∃ id l, log = [.left id] ∧ s.hasScript ∧ s.lane? id = some l ∧ l.advance.2 = true ∧ t = s.advance id) ∨
        ∃ id l ref a, log = [.dispatched id ref a.label] ∧ s.lane? id = some l ∧ l.action? = some ref ∧
          s.action? ref = some a ∧ t = s.note id ref a (some { topic := l.topic?, action := ref })) := by
  cases h with
  | still _ _ _ hlog =>
    obtain ⟨log, hlog, haside⟩ := hlog
    exact ⟨log, hlog, .inl haside⟩
  | @changed id f _ h => exact ⟨[], by subst h; cases id <;> simp [changeLane], .inl nofun⟩
  | @left id l hscript hl hleft h =>
    subst h
    exact ⟨_, (advance_of_leaves hscript hl hleft).1, .inr (.inl ⟨id, l, rfl, hscript, hl, hleft, rfl⟩)⟩
  | @dispatched id l ref a hl hnext ha h =>
    exact ⟨_, by subst h; simp [record], .inr (.inr ⟨id, l, ref, a, rfl, hl, hnext, ha, h⟩)⟩
  | added h | removed h =>
    subst h
    exact ⟨[_], by simp [addLane, removeLane, record]; rfl, .inl (by simp [Event.IsAside, Event.actingLane?])⟩

theorem Beats.lists (h : Beats s t) : SameLists s t := by
  induction h with
  | refl => exact .refl s
  | tail _ hbeat ih => exact ih.trans hbeat.lists

theorem Beats.events (h : Beats s t) : ∃ log, t.events.toList = s.events.toList ++ log := by
  induction h with
  | refl => exact ⟨[], (List.append_nil _).symm⟩
  | tail _ hbeat ih =>
    obtain ⟨log, hlog⟩ := ih
    obtain ⟨last, hlast, -⟩ := hbeat.log
    exact ⟨log ++ last, by rw [hlast, hlog, List.append_assoc]⟩

/-- Whatever is logged is logged in one of the beats. -/
theorem Beats.log {event : Event} {before after : List Event} (h : Beats s t)
    (hlog : t.events.toList = s.events.toList ++ before ++ event :: after) :
    ∃ r u log log', Beats s r ∧ Beat r u ∧ Beats u t ∧ s.events.toList ++ before = r.events.toList ++ log ∧
      u.events.toList = r.events.toList ++ (log ++ event :: log') := by
  induction h generalizing after with
  | refl => simp at hlog
  | @tail t u h hbeat ih =>
    obtain ⟨last, hlast, -⟩ := hbeat.log
    rw [hlast] at hlog
    rcases List.append_eq_append_iff.mp hlog with ⟨log, hbefore, hevent⟩ | ⟨rest, ht, hrest⟩
    · exact ⟨t, u, log, after, h, hbeat, .refl, hbefore, by rw [hlast, hevent]⟩
    · cases rest with
      | nil =>
        rw [List.append_nil] at ht
        exact ⟨t, u, [], after, h, hbeat, .refl, by rw [ht, List.append_nil], by rw [hlast]; exact congrArg _ hrest.symm⟩
      | cons first rest =>
        obtain ⟨rfl, -⟩ := List.cons_eq_cons.mp hrest
        obtain ⟨r, v, log, log', hr, hrv, hv, hbefore, hlog⟩ := ih ht
        exact ⟨r, v, log, log', hr, hrv, hv.tail hbeat, hbefore, hlog⟩

theorem eq_of_append_cons_eq_singleton {α : Type} {l l' : List α} {x y : α} (h : l ++ x :: l' = [y]) :
    l = [] ∧ x = y := by
  cases l with
  | nil => exact ⟨rfl, (List.cons_eq_cons.mp h).1⟩
  | cons _ _ => simp at h

/-- A list that is left, as the log tells, is left by a lane that goes on. -/
theorem Beats.leaves {before after : List Event} (h : Beats s t)
    (hlog : t.events.toList = s.events.toList ++ before ++ .left id :: after) :
    ∃ r l, Beats s r ∧ Beats (r.advance id) t ∧ r.events.toList = s.events.toList ++ before ∧ r.hasScript ∧
      r.lane? id = some l ∧ l.advance.2 = true := by
  obtain ⟨r, u, log, log', hr, hbeat, hu, hbefore, hlog⟩ := h.log hlog
  obtain ⟨last, hlast, hcases⟩ := hbeat.log
  obtain rfl : last = log ++ .left id :: log' := List.append_cancel_left (hlast.symm.trans hlog)
  rcases hcases with haside | ⟨other, l, heq, hscript, hl, hleft, rfl⟩ | ⟨_, _, _, _, heq, -⟩
  · exact absurd rfl ((haside (.left id) (by simp)).2 id)
  · obtain ⟨rfl, heq⟩ := eq_of_append_cons_eq_singleton heq
    cases heq
    exact ⟨r, l, hr, hu, by simpa using hbefore.symm, hscript, hl, hleft⟩
  · cases (eq_of_append_cons_eq_singleton heq).2

/-- An action that is carried out, as the log tells, is noted with the topic of its lane. -/
theorem Beats.dispatches {before after : List Event} {label : String} (h : Beats s t)
    (hlog : t.events.toList = s.events.toList ++ before ++ .dispatched id ref label :: after) :
    ∃ r l a, Beats s r ∧ Beats (r.note id ref a (some { topic := l.topic?, action := ref })) t ∧
      r.events.toList = s.events.toList ++ before ∧ r.lane? id = some l ∧ l.action? = some ref ∧
      r.action? ref = some a ∧ a.label = label := by
  obtain ⟨r, u, log, log', hr, hbeat, hu, hbefore, hlog⟩ := h.log hlog
  obtain ⟨last, hlast, hcases⟩ := hbeat.log
  obtain rfl : last = log ++ .dispatched id ref label :: log' := List.append_cancel_left (hlast.symm.trans hlog)
  rcases hcases with haside | ⟨_, _, heq, -⟩ | ⟨other, l, ref', a, heq, hl, hnext, ha, rfl⟩
  · cases (haside (.dispatched id ref label) (by simp)).1
  · cases (eq_of_append_cons_eq_singleton heq).2
  · obtain ⟨rfl, heq⟩ := eq_of_append_cons_eq_singleton heq
    cases heq
    exact ⟨r, l, a, hr, hu, by simpa using hbefore.symm, hl, hnext, ha, rfl⟩

/-! ### Passes -/

theorem beat_same (hlists : SameLists s t) (hmain : t.main = s.main) (hsides : t.sides = s.sides)
    (hplayed : t.lastPlayed = s.lastPlayed) (hevents : t.events = s.events) : Beat s t := by
  refine .still hlists (funext fun id => ?_) hplayed ⟨[], by simp [hevents], nofun⟩
  cases id <;> simp [lane?, hmain, hsides]

theorem Idles.beats (h : s.Idles id e t) : Beats s t := by
  rcases h.touches with htouch | ⟨n, u, rfl, htouch, rfl⟩ | ⟨rfl, rfl⟩
  · exact htouch.beats
  · exact htouch.beats.tail (.removed rfl)
  · refine (opened_touches s .main).beats.tail (.still ⟨rfl, rfl, rfl⟩ (funext fun id => by cases id <;> rfl) rfl ?_)
    exact ⟨[.ended], by simp [record], by simp [Event.IsAside, Event.actingLane?]⟩

theorem Carries.beats (h : s.Carries id e l ref a) : Beats s (s.carried id e l ref a) := by
  obtain ⟨r, htouch, hcarried, hlane, ha⟩ := carried_touches h
  exact htouch.beats.tail (.dispatched hlane h.next ha hcarried)

theorem Chain.beats (h : Chain s id e visits t) : Beats s t := by
  induction h with
  | @alone s t id e hquiet h =>
    cases pass_alone hquiet h with
    | acts hcarries _ _ hdone => exact hcarries.beats.trans hdone.primed.beats
    | idles hidles => exact hidles.beats
  | @starts s u id e l ref a topic visits h _ _ ih =>
    exact (h.beats.tail (.added rfl)).trans (ih.trans (resumed_touches u id).beats)

theorem pass_beats (h : s.pass id e = some t) : Beats s t := by
  obtain ⟨visits, hchain⟩ := Chain.of_passWithin h
  exact hchain.beats

/-! ### Requests -/

theorem update_beats (h : s.update e = some t) : Beats s t := by
  refine update_preserves (P := Beats s) .refl (aged_touches s e .main).beats ?_ ?_ h
  · exact fun _ _ _ hr hu => hr.trans (pass_beats hu)
  · exact fun _ _ hu => hu.tail (beat_same ⟨rfl, rfl, rfl⟩ rfl rfl rfl rfl)

theorem skipSpeech_beats {left taken count : Nat} (h : s.skipSpeech left taken = some (t, count)) : Beats s t :=
  skipSpeech_preserves (P := Beats s) (fun _ _ hr hu => hr.trans (update_beats hu)) .refl h

/-- What a request begins with: nothing, or playback starts over, maybe with something else to play. An action that is
    played on its own is what the host wants to try out. -/
inductive Opening (s : Session) (request : Request) (r : Session) : Prop where
  | same (h : r = s)
  | rewound {q : Session} (hconversation : q.conversation = s.conversation) (hevents : q.events = s.events)
      (hpreview : q.preview = s.preview ∨ q.preview = none ∨ ∃ a seconds, request = .op (.playSingle a seconds))
      (h : r = q.rewind)

/-- The session comes up while a request is dealt with. -/
def Amid (s : Session) (request : Request) (t : Session) : Prop := ∃ r, s.Opening request r ∧ Beats r t

theorem Amid.of_beats (h : Beats s t) : s.Amid request t := ⟨s, .same rfl, h⟩

theorem Amid.beat (h : s.Amid request t) (hbeat : Beat t u) : s.Amid request u := by
  obtain ⟨r, hopening, ht⟩ := h
  exact ⟨r, hopening, ht.tail hbeat⟩

/-- What holds when a request has been begun and is kept by every beat holds while the request is dealt with. -/
theorem Amid.keeps {P : Session → Prop} (h : s.Amid request t) (hopening : ∀ {r}, s.Opening request r → P r)
    (hbeat : ∀ {s t}, P s → Beat s t → P t) : P t := by
  obtain ⟨r, hr, hbeats⟩ := h
  induction hbeats with
  | refl => exact hopening hr
  | tail _ h ih => exact hbeat ih h

theorem playSingle_amid {seconds : Seconds} (h : s.playSingle a seconds = some t) :
    s.Amid (.op (.playSingle a seconds)) t := by
  let r : Session := ({ s with preview := some a } : Session).rewind
  have hopening : s.Opening (.op (.playSingle a seconds)) r :=
    .rewound (q := { s with preview := some a }) rfl rfl (.inr (.inr ⟨a, seconds, rfl⟩)) rfl
  have hbegun : Beats r { r with running := true, paused := false } :=
    .single (beat_same ⟨rfl, rfl, rfl⟩ rfl rfl rfl rfl)
  refine ⟨r, hopening, hbegun.trans ?_⟩
  unfold playSingle at h
  simp only at h
  split at h
  · exact update_beats h
  · cases h
    exact .refl

/-- Something that a host wants, apart from answering a choice; the side lanes that it adds start at topics. -/
structure Leads (s : Session) (request : Request) : Prop where
  select : ∀ index, request ≠ .op (.select index)
  side : ∀ l, request.lane? = some l → s.IsTopicLane l

theorem leads_of_ne {op : Op} (h : (∀ index, op ≠ .select index) ∧ ∀ l, op ≠ .addSide l) : s.Leads (.op op) where
  select index heq := h.1 index (Request.op.inj heq)
  side l hl := by
    unfold Request.lane? at hl
    split at hl
    · rename_i heq
      exact absurd (Request.op.inj heq) (h.2 _)
    · cases hl

theorem step_amid {op : Op} {reply : Reply} (hop : s.Leads (.op op)) (htakes : op ≠ .takeEvents)
    (h : s.step op = some (t, reply)) : s.Amid (.op op) t := by
  cases op with
  | setTopic topic =>
    cases h
    unfold setTopic
    split
    · exact .of_beats .refl
    · exact ⟨_, .rewound (q := { s with topic, preview := none }) rfl rfl (.inr (.inl rfl)) rfl, .refl⟩
  | setRunning value | setPaused value | setAutoAdvance value | takeInfo =>
    cases h
    exact .of_beats (.single (beat_same ⟨rfl, rfl, rfl⟩ rfl rfl rfl rfl))
  | update e =>
    obtain ⟨u, hu, hreply⟩ := Option.bind_eq_some_iff.mp h
    cases hreply
    exact .of_beats (update_beats hu)
  | rewind =>
    cases h
    exact ⟨_, .rewound (q := s) rfl rfl (.inl rfl) rfl, .refl⟩
  | advance =>
    cases h
    exact .of_beats (Touches.advance : Touches .main s _).beats
  | fastForward =>
    obtain ⟨⟨u, count⟩, hu, hreply⟩ := Option.bind_eq_some_iff.mp h
    cases hreply
    exact .of_beats (skipSpeech_beats hu)
  | cancelLoop depth =>
    cases h
    exact .of_beats (cancelLoop_touches depth).beats
  | select index => exact absurd rfl (hop.select index)
  | playSingle action seconds =>
    obtain ⟨u, hu, hreply⟩ := Option.bind_eq_some_iff.mp h
    cases hreply
    exact playSingle_amid hu
  | addSide l =>
    obtain ⟨u, hu, hreply⟩ := Option.bind_eq_some_iff.mp h
    cases hreply
    obtain ⟨topic, parent, rfl⟩ := hop.side l rfl
    exact .of_beats ((Relation.ReflTransGen.single (.added rfl)).trans (pass_beats hu))
  | addActor actor =>
    cases h
    exact .of_beats (Touches.addActor actor : Touches .main s _).beats
  | removeActor name =>
    cases h
    exact .of_beats (Touches.removeActor name : Touches .main s _).beats
  | speech slot op | world op =>
    cases h
    exact .of_beats (.single (beat_same ⟨rfl, rfl, rfl⟩ rfl rfl rfl rfl))
  | takeEvents => exact absurd rfl htakes

theorem respond_amid (hleads : s.Leads request) (htakes : request ≠ .op .takeEvents)
    (h : s.respond request = some t) : s.Amid request t := by
  cases request with
  | op op =>
    obtain ⟨⟨u, reply⟩, hstep, rfl⟩ := Option.map_eq_some_iff.mp h
    exact step_amid hleads (fun heq => htakes (heq ▸ rfl)) hstep
  | edit world =>
    cases h
    exact .of_beats (.single (beat_same ⟨rfl, rfl, rfl⟩ rfl rfl rfl rfl))

/-- The sessions in which a request lets lanes have passes come up beat by beat. -/
theorem Due.beats (h : s.Due request r id e) (hleads : s.Leads request) : Beats s r := by
  induction h with
  | @frame e r before after id _ _ _ h =>
    have hpasses : Beats (s.aged e) r :=
      foldlM_preserves (P := Beats (s.aged e)) (fun id _ r u hr hu => hr.trans (pass_beats hu)) .refl h
    exact (aged_touches s e .main).beats.trans hpasses
  | added hlane =>
    obtain ⟨topic, parent, rfl⟩ := hleads.side _ hlane
    exact .single (.added rfl)
  | started _ h _ ih => exact ih.trans (h.beats.tail (.added rfl))

/-! ### What requests log -/

/-- Whatever is logged while a request is dealt with is logged beat by beat, apart from playback starting over. -/
theorem Opening.log {event : Event} {before after : List Event} (h : s.Opening request r) (hbeats : Beats r t)
    (hne : event ≠ .rewound) (hlog : t.events.toList = s.events.toList ++ before ++ event :: after) :
    ∃ before', r.events.toList ++ before' = s.events.toList ++ before ∧
      t.events.toList = r.events.toList ++ before' ++ event :: after := by
  cases h with
  | same h =>
    subst h
    exact ⟨before, rfl, hlog⟩
  | @rewound q _ hevents _ h =>
    subst h
    obtain ⟨log, hmore⟩ := hbeats.events
    have hbegins : q.rewind.events.toList = s.events.toList ++ [.rewound] := hevents ▸ events_rewind
    rw [hmore, hbegins, List.append_assoc, List.append_assoc] at hlog
    cases before with
    | nil => exact absurd (List.cons_eq_cons.mp (List.append_cancel_left hlog)).1.symm hne
    | cons first before' =>
      obtain ⟨rfl, hrest⟩ := List.cons_eq_cons.mp (List.append_cancel_left hlog)
      refine ⟨before', by rw [hbegins, List.append_assoc]; rfl, ?_⟩
      rw [hmore, List.append_assoc]
      exact congrArg _ hrest

theorem respond_log {event : Event} {before after : List Event} (hleads : s.Leads request)
    (h : s.respond request = some t) (hne : event ≠ .rewound)
    (hlog : t.events.toList = s.events.toList ++ before ++ event :: after) :
    ∃ r before', s.Opening request r ∧ Beats r t ∧ r.events.toList ++ before' = s.events.toList ++ before ∧
      t.events.toList = r.events.toList ++ before' ++ event :: after := by
  have htakes : request ≠ .op .takeEvents := by
    rintro rfl
    cases h
    simp at hlog
  obtain ⟨r, hr, hbeats⟩ := respond_amid hleads htakes h
  obtain ⟨before', hbefore, hlog⟩ := hr.log hbeats hne hlog
  exact ⟨r, before', hr, hbeats, hbefore, hlog⟩

/-- A list that is left while a request is dealt with, as the log tells, is left by a lane that goes on. -/
theorem respond_leaves {before after : List Event} (hleads : s.Leads request) (h : s.respond request = some t)
    (hlog : t.events.toList = s.events.toList ++ before ++ .left id :: after) :
    ∃ r l, s.Amid request r ∧ Beats (r.advance id) t ∧ r.events.toList = s.events.toList ++ before ∧ r.hasScript ∧
      r.lane? id = some l ∧ l.advance.2 = true := by
  obtain ⟨q, before', hq, hbeats, hbefore, hlog⟩ := respond_log hleads h (by simp) hlog
  obtain ⟨r, l, hr, ht, hevents, hleaves⟩ := hbeats.leaves hlog
  exact ⟨r, l, ⟨q, hq, hr⟩, ht, hevents.trans hbefore, hleaves⟩

/-- An action that is carried out while a request is dealt with, as the log tells, is noted with the topic of its lane. -/
theorem respond_dispatches {before after : List Event} {label : String} (hleads : s.Leads request)
    (h : s.respond request = some t)
    (hlog : t.events.toList = s.events.toList ++ before ++ .dispatched id ref label :: after) :
    ∃ r l a, s.Amid request r ∧ Beats (r.note id ref a (some { topic := l.topic?, action := ref })) t ∧
      r.events.toList = s.events.toList ++ before ∧ r.lane? id = some l ∧ l.action? = some ref ∧
      r.action? ref = some a ∧ a.label = label := by
  obtain ⟨q, before', hq, hbeats, hbefore, hlog⟩ := respond_log hleads h (by simp) hlog
  obtain ⟨r, l, a, hr, ht, hevents, hnoted⟩ := hbeats.dispatches hlog
  exact ⟨r, l, a, ⟨q, hq, hr⟩, ht, hevents.trans hbefore, hnoted⟩

/-! ### The sessions that a host reaches -/

/-- The sessions between the requests of a host, which wants things of some sort (`wants`) and has an interpreter that
    does what actions say. -/
inductive Reaches (c : Conversation) (wants : Session → Request → Prop) : Session → Prop where
  | start (chance : Chance) (options : Options) : Reaches c wants (.start c (.scripted chance) options)
  | responds {s t : Session} {request : Request} (hs : Reaches c wants s) (hwants : wants s request)
      (h : s.respond request = some t) : Reaches c wants t

variable {wants : Session → Request → Prop} {P : Session → Prop}

/-- What holds at the start and is kept by every opening and every beat holds of every session that a host reaches, if it
    has nothing to do with the log. -/
theorem Reaches.keeps (hleads : ∀ s request, wants s request → s.Leads request)
    (hstart : ∀ chance options, P (.start c (.scripted chance) options))
    (hopening : ∀ {s request r}, wants s request → P s → s.Opening request r → P r)
    (hbeat : ∀ {s t}, P s → Beat s t → P t) (htaken : ∀ {s}, P s → P { s with events := #[] })
    (h : Reaches c wants s) : P s := by
  induction h with
  | start chance options => exact hstart chance options
  | @responds s t request _ hwants h ih =>
    by_cases htakes : request = .op .takeEvents
    · subst htakes
      cases h
      exact htaken ih
    · exact (respond_amid (hleads s request hwants) htakes h).keeps (hopening hwants ih) hbeat

theorem Reaches.steps {ops : List Op} (hs : Reaches c wants s) (hops : ∀ op ∈ ops, ∀ s, wants s (.op op))
    (h : s.steps ops = some t) : Reaches c wants t := by
  induction ops generalizing s with
  | nil =>
    cases h
    exact hs
  | cons op ops ih =>
    obtain ⟨u, hu, hrest⟩ := Option.bind_eq_some_iff.mp h
    exact ih (.responds hs (hops op List.mem_cons_self s) hu) (fun op hop => hops op (List.mem_cons_of_mem _ hop)) hrest

theorem exists_reaches {d : Document} {chance : Chance} {options : Options} {ops : List Op} {p : Session → Bool}
    (hops : ∀ op ∈ ops, ∀ s, wants s (.op op))
    (h : ∃ c, d.load = .ok c ∧ ((Session.start c (.scripted chance) options).steps ops).any p) :
    ∃ c s, d.load = .ok c ∧ Reaches c wants s ∧ p s := by
  obtain ⟨c, hc, hplayed⟩ := h
  obtain ⟨s, hs, hp⟩ := (Option.any_eq_true _ _).mp hplayed
  exact ⟨c, s, hc, (Reaches.start chance options).steps hops hs, hp⟩

end Session
end Dialogue
