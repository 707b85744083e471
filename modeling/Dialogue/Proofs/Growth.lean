import Dialogue.Proofs.Turn

/-! How lanes grow. Whatever is done to a lane while a script is played is one of a few changes (`LaneChange`), apart
    from what an answer does (`Alteration`). What is done to a session on behalf of one lane leaves all others as they are
    (`Alters`), and what playing does on behalf of one lane is made of single beats besides (`Touches`). -/

namespace Dialogue

/-- The lane on which an action is carried out. -/
def Event.actingLane? : Event → Option LaneId
  | .dispatched lane _ _ => some lane
  | .rewound | .ended | .entered _ _ | .left _ | .loopCancelled _ _ | .loopEnded _ _ | .selected _ | .laneAdded _
  | .laneRemoved _ | .actorRemoved _ => none

/-- Events that tell neither that an action is carried out nor that a list is left. -/
def Event.IsAside (e : Event) : Prop := e.actingLane? = none ∧ ∀ id, e ≠ .left id

namespace Session
variable {s t u : Session} {id other : LaneId} {l l' : Lane}

/-! ### Changes of lanes -/

/-- The cursors with which the action `ref` of a kind enters a list. -/
inductive Enters (s : Session) (ref : ActionRef) : Kind ListId → Cursor → Prop where
  | topic {file topic t cur} (hfind : s.conversation.findTopic? file topic = some t) (hcur : s.topicCursor? t = some cur) :
      Enters s ref (.cue (.snippet file topic false)) { cur with parent := some ref }
  | branch {cases otherwise} (list : ListId) (hlist : list ∈ (Kind.ifElse cases otherwise).lists) :
      Enters s ref (.ifElse cases otherwise) { s.cursor (.script list) with parent := some ref }
  | meanwhile (answers list name) :
      Enters s ref (.choice answers list name) { s.cursor (.script list) with parent := some ref, looping := true }
  | body (condition list) :
      Enters s ref (.wait (some condition) list)
        { s.cursor (.script list) with parent := some ref, guard := some ref, looping := true }

/-- Something is asked that its action asks: every offer is one of the answers. -/
def Poses (s : Session) (k : Choice) : Prop :=
  ∃ a answers meanwhile name, s.action? k.action = some a ∧ a.kind = .choice answers meanwhile name ∧
    ∀ o ∈ k.offers, answers[o.option]?.map (·.text) = some o.text

/-- What playing does to a lane at once. -/
inductive LaneChange (s : Session) : Lane → Lane → Prop where
  | primed (l : Lane) : LaneChange s l l.prime
  /-- The next action does not wait for actors any more. -/
  | timed (l : Lane) (time : Seconds) : LaneChange s l { l with waiting := false, time }
  | rooted {l : Lane} (hempty : l.cursors = []) : LaneChange s l { l with cursors := s.root?.toList }.prime
  | advanced (l : Lane) : LaneChange s l l.advance.1
  /-- The condition of a loop has failed. -/
  | ended {l : Lane} {d : Nat} (hd : d < l.depth) :
      LaneChange s l ((l.truncate (d + 1)).changeAt d fun c => c.release.forwardEnd).prime
  | released {l : Lane} {d : Nat} (hd : d < l.depth) :
      LaneChange s l ((l.truncate (d + 1)).changeAt d Cursor.release).prime
  | stopped (l : Lane) : LaneChange s l ((l.truncate 1).changeTop Cursor.forwardEnd)
  | topicStopped (l : Lane) : LaneChange s l (l.leaveToTopic.changeTop Cursor.forwardLast)
  | entered {l : Lane} {ref : ActionRef} {a : Action ListId} {cur : Cursor} (hnext : l.action? = some ref)
      (ha : s.action? ref = some a) (hcur : s.Enters ref a.kind cur) : LaneChange s l (l.prime.push cur)

/-- What is done to a lane at once, by playing it or by an answer. -/
inductive Alteration (s : Session) : Lane → Lane → Prop where
  | played {l l' : Lane} (h : s.LaneChange l l') : Alteration s l l'
  /-- A list is left for that of an answer. -/
  | passed {l : Lane} {d : Nat} (hd : l.depth = d + 1) : Alteration s l (l.changeAt d Cursor.forwardEnd)
  | answered {l : Lane} {ref : ActionRef} {a : Action ListId} (list : ListId) (hne : l.cursors ≠ [])
      (ha : s.action? ref = some a) : Alteration s l (l.prime.push { s.cursor (.script list) with parent := some ref })

/-- A number of alterations. -/
abbrev Grows (s : Session) : Lane → Lane → Prop := Relation.ReflTransGen s.Alteration

/-- Lanes that have been built by playing a script, from nothing or from the start of a topic. -/
inductive Grown (s : Session) (l : Lane) : Prop where
  | main (h : s.Grows {} l)
  | topic {t parent} (h : s.Grows (s.topicLane t parent) l)

theorem Grown.later (h : s.Grown l) (hgrows : s.Grows l l') : s.Grown l' := by
  cases h with
  | main h => exact .main (h.trans hgrows)
  | topic h => exact .topic (h.trans hgrows)

/-- The same lists of actions are played. -/
structure SameLists (s t : Session) : Prop where
  conversation : t.conversation = s.conversation
  topic : t.topic = s.topic
  preview : t.preview = s.preview

theorem SameScript.lists (h : SameScript s t) : SameLists s t := ⟨h.conversation, h.topic, h.preview⟩

namespace SameLists

theorem refl (s : Session) : SameLists s s := ⟨rfl, rfl, rfl⟩

theorem symm (h : SameLists s t) : SameLists t s := ⟨h.conversation.symm, h.topic.symm, h.preview.symm⟩

theorem trans (h : SameLists s t) (h' : SameLists t u) : SameLists s u :=
  ⟨h'.conversation.trans h.conversation, h'.topic.trans h.topic, h'.preview.trans h.preview⟩

theorem hasScript (h : SameLists s t) : t.hasScript = s.hasScript := by
  rw [Session.hasScript, Session.hasScript, h.topic, h.preview]

theorem list (h : SameLists s t) : t.list = s.list := by
  funext list
  cases list <;> simp [Session.list, h.conversation, h.preview]

theorem action? (h : SameLists s t) : t.action? = s.action? := by
  funext ref
  rw [Session.action?, Session.action?, h.list]

theorem cursor (h : SameLists s t) : t.cursor = s.cursor := by
  funext list
  simp only [Session.cursor, h.list]

theorem topicCursor? (h : SameLists s t) : t.topicCursor? = s.topicCursor? := by
  funext topic
  simp only [Session.topicCursor?, h.conversation, h.cursor]

theorem topicLane (h : SameLists s t) : t.topicLane = s.topicLane := by
  funext topic parent
  simp only [Session.topicLane, h.topicCursor?]

theorem root? (h : SameLists s t) : t.root? = s.root? := by
  simp only [Session.root?, h.preview, h.topic, h.cursor, h.topicCursor?]

theorem poses {k : Choice} (h : SameLists s t) (hk : s.Poses k) : t.Poses k := by
  obtain ⟨a, answers, meanwhile, name, ha, hrest⟩ := hk
  exact ⟨a, answers, meanwhile, name, h.action? ▸ ha, hrest⟩

theorem enters {ref : ActionRef} {kind : Kind ListId} {cur : Cursor} (h : SameLists s t)
    (henters : s.Enters ref kind cur) : t.Enters ref kind cur := by
  cases henters with
  | topic hfind hcur => exact .topic (h.conversation ▸ hfind) (h.topicCursor? ▸ hcur)
  | branch list hlist => exact h.cursor ▸ .branch list hlist
  | meanwhile answers list name => exact h.cursor ▸ .meanwhile answers list name
  | body condition list => exact h.cursor ▸ .body condition list

theorem change (h : SameLists s t) (hchange : s.LaneChange l l') : t.LaneChange l l' := by
  cases hchange with
  | primed => exact .primed l
  | timed time => exact .timed l time
  | rooted hempty => exact h.root? ▸ .rooted hempty
  | advanced => exact .advanced l
  | ended hd => exact .ended hd
  | released hd => exact .released hd
  | stopped => exact .stopped l
  | topicStopped => exact .topicStopped l
  | entered hnext ha hcur => exact .entered hnext (h.action? ▸ ha) (h.enters hcur)

theorem alteration (h : SameLists s t) (halters : s.Alteration l l') : t.Alteration l l' := by
  cases halters with
  | played hchange => exact .played (h.change hchange)
  | passed hd => exact .passed hd
  | answered list hne ha => exact h.cursor ▸ .answered list hne (h.action? ▸ ha)

theorem grows (h : SameLists s t) (hgrows : s.Grows l l') : t.Grows l l' :=
  Relation.ReflTransGen.mono (fun _ _ => h.alteration) _ _ hgrows

theorem grown (h : SameLists s t) (hgrown : s.Grown l) : t.Grown l := by
  cases hgrown with
  | main hgrows => exact .main (h.grows hgrows)
  | topic hgrows => exact .topic (h.topicLane ▸ h.grows hgrows)

end SameLists

/-! ### Changes on behalf of one lane -/

/-- The numbers of the side lanes. -/
def numbers (s : Session) : List Nat := s.sides.map (·.1)

theorem lane?_side_isSome_iff {n : Nat} : (s.lane? (.side n)).isSome ↔ n ∈ s.numbers := by
  simp [lane?, numbers, List.lookup_isSome_iff]

theorem lane?_record_changeLane (hl : s.lane? id = some l) (f : Lane → Lane) (event : Event) :
    ((s.changeLane id f).record event).lane? id = some (f l) := by
  have hchanged : (s.changeLane id f).lane? id = some (f l) := by rw [lane?_changeLane_self, hl, Option.map_some]
  cases id <;> exact hchanged

theorem lane?_addLane (hs : s.Numbered) : (s.addLane l).lane? (.side s.nextSide) = some l := by
  simp [lane?, Session.addLane, Session.record, List.lookup_append, hs.lookup_nextSide]

theorem lane?_addLane_of_ne (h : id ≠ .side s.nextSide) : (s.addLane l).lane? id = s.lane? id := by
  cases id with
  | main => rfl
  | side n =>
    have hne : (n == s.nextSide) = false := beq_eq_false_iff_ne.mpr fun heq => h (heq ▸ rfl)
    simp [lane?, Session.addLane, Session.record, List.lookup_append, List.lookup_cons, hne]

/-- No lane has come or gone, no other lane than `id` has changed, no action has been carried out, playback has not
    ended, and a session that has stopped stays so. What is asked is asked by an action. -/
structure Alters (id : LaneId) (s t : Session) : Prop where
  lists : SameLists s t
  numbers : t.numbers = s.numbers
  nextSide : t.nextSide = s.nextSide
  lane : ∀ l, s.lane? id = some l → ∃ l', t.lane? id = some l' ∧ s.Grows l l'
  others : ∀ other, other ≠ id → t.lane? other = s.lane? other
  log : ∃ log, t.events.toList = s.events.toList ++ log ∧ log.filterMap Event.actingLane? = [] ∧ .ended ∉ log
  choice : ∀ k, t.choice = some k → s.choice = some k ∨ s.Poses k
  played : t.lastPlayed = s.lastPlayed
  stopped : s.running = false → t.running = false

namespace Alters

theorem stage (hlists : SameLists s t) (hmain : t.main = s.main) (hsides : t.sides = s.sides)
    (hnext : t.nextSide = s.nextSide) (hevents : t.events = s.events)
    (hchoice : ∀ k, t.choice = some k → s.choice = some k ∨ s.Poses k) (hplayed : t.lastPlayed = s.lastPlayed)
    (hstopped : s.running = false → t.running = false) : Alters id s t := by
  have hlane : ∀ other, t.lane? other = s.lane? other := by
    intro other
    cases other <;> simp [lane?, hmain, hsides]
  exact ⟨hlists, by rw [Session.numbers, hsides, Session.numbers], hnext,
    fun l hl => ⟨l, (hlane id).trans hl, .refl⟩, fun other _ => hlane other, ⟨[], by simp [hevents], rfl, List.not_mem_nil⟩,
    hchoice, hplayed, hstopped⟩

theorem trans (h : Alters id s t) (h' : Alters id t u) : Alters id s u where
  lists := h.lists.trans h'.lists
  numbers := h'.numbers.trans h.numbers
  nextSide := h'.nextSide.trans h.nextSide
  lane l hl := by
    obtain ⟨m, hm, hgrows⟩ := h.lane l hl
    obtain ⟨m', hm', hgrows'⟩ := h'.lane m hm
    exact ⟨m', hm', hgrows.trans (h.lists.symm.grows hgrows')⟩
  others other hne := (h'.others other hne).trans (h.others other hne)
  log := by
    obtain ⟨log, hlog, hnone, hgoes⟩ := h.log
    obtain ⟨log', hlog', hnone', hgoes'⟩ := h'.log
    refine ⟨log ++ log', by rw [hlog', hlog, List.append_assoc], by rw [List.filterMap_append, hnone, hnone']; rfl, ?_⟩
    simp [hgoes, hgoes']
  choice k hk := by
    rcases h'.choice k hk with hold | hposes
    · exact h.choice k hold
    · exact .inr (h.lists.symm.poses hposes)
  played := h'.played.trans h.played
  stopped := h'.stopped ∘ h.stopped

theorem record {e : Event} (he : e.actingLane? = none) (hgoes : e ≠ .ended) : Alters id s (s.record e) :=
  ⟨⟨rfl, rfl, rfl⟩, rfl, rfl, fun l hl => ⟨l, by cases id <;> exact hl, .refl⟩,
    fun other _ => by cases other <;> rfl,
    ⟨[e], by simp [Session.record], by simp [he], by simpa using hgoes.symm⟩, fun _ => .inl, rfl, fun h => h⟩

theorem numbers_changeLane (f : Lane → Lane) : (s.changeLane id f).numbers = s.numbers := by
  cases id with
  | main => rfl
  | side n =>
    simp only [Session.numbers, Session.changeLane, List.map_map]
    refine List.map_congr_left fun entry _ => ?_
    simp only [Function.comp_apply]
    split <;> rfl

theorem change {f : Lane → Lane} (hf : ∀ l, s.lane? id = some l → s.Alteration l (f l)) :
    Alters id s (s.changeLane id f) := by
  refine ⟨by cases id <;> exact ⟨rfl, rfl, rfl⟩, numbers_changeLane f, by cases id <;> rfl, fun l hl => ?_,
    fun other hne => lane?_changeLane_of_ne hne, ⟨[], ?_, rfl, List.not_mem_nil⟩, fun k hk => .inl ?_,
    by cases id <;> rfl, ?_⟩
  · exact ⟨f l, by rw [lane?_changeLane_self, hl]; rfl, .single (hf l hl)⟩
  · cases id <;> simp [Session.changeLane]
  · cases id <;> exact hk
  · cases id <;> exact fun h => h

theorem enter {cur : Cursor} (h : ∀ l, s.lane? id = some l → s.Alteration l (l.prime.push cur)) :
    Alters id s (s.enter id cur) := by
  have hrecord : Alters id s (s.record (.entered id cur.list)) := .record rfl nofun
  refine hrecord.trans (.change fun l hl => ?_)
  have hlane : s.lane? id = some l := by cases id <;> exact hl
  have hlists : SameLists s (s.record (.entered id cur.list)) := ⟨rfl, rfl, rfl⟩
  exact hlists.alteration (h l hlane)

theorem before (h : Alters id s t) (hl' : t.lane? id = some l') : ∃ l, s.lane? id = some l ∧ s.Grows l l' := by
  have hsome : (s.lane? id).isSome := by
    cases id with
    | main => rfl
    | side n =>
      rw [lane?_side_isSome_iff, ← h.numbers, ← lane?_side_isSome_iff, hl']
      rfl
  obtain ⟨l, hl⟩ := Option.isSome_iff_exists.mp hsome
  obtain ⟨l'', hl'', hgrows⟩ := h.lane l hl
  exact ⟨l, hl, Option.some.inj (hl'.symm.trans hl'') ▸ hgrows⟩

end Alters

/-! ### Beats -/

/-- The single things that happen to the lanes of a session while the same is played. -/
inductive Beat (s t : Session) : Prop where
  /-- Something else happens. -/
  | still (hlists : SameLists s t) (hlanes : t.lane? = s.lane?) (hplayed : t.lastPlayed = s.lastPlayed)
      (hlog : ∃ log, t.events.toList = s.events.toList ++ log ∧ ∀ e ∈ log, e.IsAside)
  | changed {id : LaneId} {f : Lane → Lane} (hf : ∀ l, s.lane? id = some l → s.LaneChange l (f l))
      (h : t = s.changeLane id f)
  /-- A lane goes on at the end of its innermost list. -/
  | left {id : LaneId} {l : Lane} (hscript : s.hasScript) (hl : s.lane? id = some l) (hleft : l.advance.2 = true)
      (h : t = s.advance id)
  /-- The next action of a lane is noted. -/
  | dispatched {id : LaneId} {l : Lane} {ref : ActionRef} {a : Action ListId} (hl : s.lane? id = some l)
      (hnext : l.action? = some ref) (ha : s.action? ref = some a)
      (h : t = { s with lastPlayed := some { topic := l.topic?, action := ref } }.record (.dispatched id ref a.label))
  | added {topic : TopicId} {parent : Option ActionRef} (h : t = s.addLane (s.topicLane topic parent))
  | removed {n : Nat} (h : t = s.removeLane n)

abbrev Beats : Session → Session → Prop := Relation.ReflTransGen Beat

/-- Playing has changed the lane `id` only, beat by beat. -/
structure Touches (id : LaneId) (s t : Session) : Prop extends Alters id s t where
  beats : Beats s t

namespace Touches

theorem stage (hlists : SameLists s t) (hmain : t.main = s.main) (hsides : t.sides = s.sides)
    (hnext : t.nextSide = s.nextSide) (hevents : t.events = s.events)
    (hchoice : ∀ k, t.choice = some k → s.choice = some k ∨ s.Poses k) (hplayed : t.lastPlayed = s.lastPlayed)
    (hstopped : s.running = false → t.running = false) : Touches id s t where
  toAlters := .stage hlists hmain hsides hnext hevents hchoice hplayed hstopped
  beats := by
    refine .single (.still hlists (funext fun other => ?_) hplayed ⟨[], by simp [hevents], nofun⟩)
    cases other <;> simp [lane?, hmain, hsides]

theorem refl (id : LaneId) (s : Session) : Touches id s s := stage (.refl s) rfl rfl rfl rfl (fun _ => .inl) rfl fun h => h

theorem trans (h : Touches id s t) (h' : Touches id t u) : Touches id s u :=
  ⟨h.toAlters.trans h'.toAlters, h.beats.trans h'.beats⟩

theorem record {e : Event} (he : e.actingLane? = none) (hgoes : e ≠ .ended) (hleft : ∀ id, e ≠ .left id) :
    Touches id s (s.record e) where
  toAlters := .record he hgoes
  beats := by
    refine .single (.still ⟨rfl, rfl, rfl⟩ (funext fun other => by cases other <;> rfl) rfl ⟨[e], ?_, ?_⟩)
    · simp [Session.record]
    · exact fun e' he' => List.mem_singleton.mp he' ▸ ⟨he, hleft⟩

theorem change {f : Lane → Lane} (hf : ∀ l, s.lane? id = some l → s.LaneChange l (f l)) :
    Touches id s (s.changeLane id f) :=
  ⟨.change fun l hl => .played (hf l hl), .single (.changed hf rfl)⟩

theorem advance : Touches id s (s.advance id) := by
  by_cases hscript : s.hasScript
  · cases hl : s.lane? id with
    | none =>
      have hsame : s.advance id = s := by simp [Session.advance, hscript, hl]
      exact hsame.symm ▸ .refl id s
    | some l =>
      by_cases hempty : l.cursors = []
      · have hroot : s.advance id = s.changeLane id fun l => { l with cursors := s.root?.toList }.prime := by
          simp [Session.advance, hscript, hl, hempty]
        rw [hroot]
        refine .change fun k hk => .rooted ?_
        obtain rfl : l = k := Option.some.inj (hl.symm.trans hk)
        exact hempty
      · have hgo : ∀ k, s.lane? id = some k → s.LaneChange k l.advance.1 := fun k hk => by
          obtain rfl : l = k := Option.some.inj (hl.symm.trans hk)
          exact .advanced l
        have hadvance := advance_of_ne_nil hscript hl hempty
        cases hleft : l.advance.2 with
        | false =>
          rw [hadvance, hleft, if_neg Bool.false_ne_true]
          exact .change hgo
        | true =>
          refine ⟨?_, .single (.left hscript hl hleft rfl)⟩
          rw [hadvance, hleft, if_pos rfl]
          exact (Alters.change fun k hk => .played (hgo k hk)).trans (.record rfl (by simp))
  · have hstop : s.advance id = { s with running := false } := by simp [Session.advance, hscript]
    exact hstop.symm ▸ .stage ⟨rfl, rfl, rfl⟩ rfl rfl rfl rfl (fun _ => .inl) rfl fun _ => rfl

theorem enter {cur : Cursor} (h : ∀ l, s.lane? id = some l → s.LaneChange l (l.prime.push cur)) :
    Touches id s (s.enter id cur) := by
  have hrecord : Touches id s (s.record (.entered id cur.list)) := .record rfl nofun nofun
  refine hrecord.trans (.change fun l hl => ?_)
  have hlane : s.lane? id = some l := by cases id <;> exact hl
  have hlists : SameLists s (s.record (.entered id cur.list)) := ⟨rfl, rfl, rfl⟩
  exact hlists.change (h l hlane)

end Touches

end Session
end Dialogue
