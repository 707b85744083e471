import Dialogue.Proofs.Guards
import Dialogue.Proofs.Settling
import Dialogue.Proofs.Waiting

/-! What becomes of a lane whose choice is answered. The list that plays meanwhile is put at its end, and the list of
    the answer is entered above it; once that is over too, passes leave both lists, one after the other, and the lane
    goes on after the action that has asked (`select_goes_on`). -/

namespace Dialogue

namespace Cursor
variable {c : Cursor}

theorem isOver_released : c.release.forwardEnd.IsOver := ⟨action?_forwardEnd, rfl⟩

/-- There is nothing after the end of a list. -/
theorem IsOver.advance (h : c.IsOver) : c.advance.IsOver := ⟨h.action?_advance, h.2⟩

end Cursor

/-- What is asked, with the list that plays meanwhile and the variable. -/
def Kind.asked? {L : Type} : Kind L → Option (List (Answer L) × L × Option String)
  | .choice answers meanwhile name? => some (answers, meanwhile, name?)
  | _ => none

theorem Kind.asked?_eq_some {L : Type} {kind : Kind L} {answers : List (Answer L)} {meanwhile : L}
    {name? : Option String} :
    kind.asked? = some (answers, meanwhile, name?) ↔ kind = .choice answers meanwhile name? := by
  cases kind <;> simp [asked?]

/-- A number that does not fit is the greatest one. -/
theorem toInt_saturate (n : Nat) : (saturate n).toInt = min (n : Int) 2147483647 := by
  have hmin : Int32.minValue.toInt = -2147483648 := rfl
  have hmax : Int32.maxValue.toInt = 2147483647 := rfl
  unfold saturate
  split
  · omega
  · split
    · omega
    · rw [Int32.toInt_ofInt_of_le (by omega) (by omega)]
      omega

/-- The world when the variable of a choice, if there is one, has received the number of an answer. -/
def World.told (w : World) (name? : Option String) (option : Nat) : World :=
  (name?.filter (· ≠ "")).elim w fun name => w.setVariable name (saturate option)

namespace Session
variable {s t u : Session} {id : LaneId} {l : Lane} {e : Seconds} {outer own : List Cursor} {below top : Cursor}

theorem lane?_enter (hl : s.lane? id = some l) (c : Cursor) : (s.enter id c).lane? id = some (l.prime.push c) := by
  have hsame : (s.record (.entered id c.list)).lane? id = some l := by
    rw [← hl]
    cases id <;> rfl
  rw [enter, lane?_changeLane_self, hsame, Option.map_some]

/-! ### Leaving lists -/

theorem begun_of_ne_nil (hl : s.lane? id = some l) (hne : l.cursors ≠ []) : s.begun id = s := by
  refine if_neg ?_
  rintro ⟨rfl, hempty⟩
  obtain rfl : s.main = l := Option.some.inj hl
  exact hne (List.isEmpty_iff.mp hempty)

theorem opened_of_whole (hl : s.lane? id = some l) (hne : l.cursors ≠ [])
    (hwhole : ∀ c ∈ l.cursors, s.isBroken c = false) : s.opened id = s := by
  rw [opened, begun_of_ne_nil hl hne, endBrokenLoop_of_none hl (List.findIdx?_eq_none_iff.mpr hwhole)]

theorem isBroken_of_isOver {c : Cursor} (h : c.IsOver) : s.isBroken c = false := by
  rw [isBroken, h.2, Bool.false_and]

/-- A pass on a lane whose innermost list is over leaves that list, and does nothing else. -/
theorem pass_leaves (hscript : s.hasScript) (hl : s.lane? id = some l) (hcursors : l.cursors = outer ++ [below] ++ [top])
    (hover : top.IsOver) (hwhole : ∀ c ∈ outer ++ [below], s.isBroken c = false) :
    s.pass id e = some ((s.changeLane id fun _ => ⟨outer ++ [below.advance], true, 0⟩).record (.left id)) := by
  obtain ⟨cursors, waiting, time⟩ := l
  subst hcursors
  have hne : outer ++ [below] ++ [top] ≠ [] := by simp
  have hopened : s.opened id = s := by
    refine opened_of_whole hl hne fun c hc => ?_
    rcases List.mem_append.mp hc with hc | hc
    · exact hwhole c hc
    · exact List.mem_singleton.mp hc ▸ isBroken_of_isOver hover
  have hadvance : s.advance id = (s.changeLane id fun _ => ⟨outer ++ [below.advance], true, 0⟩).record (.left id) := by
    rw [advance_of_ne_nil hscript hl hne, Lane.advance_of_none hover.advance.1]
    rfl
  have hdeep : 1 < (Lane.mk (outer ++ [below] ++ [top]) waiting time).depth := by rw [Lane.depth_concat]; simp
  rw [pass, patience, passWithin_succ, hopened, hl]
  simp only [Lane.action?_concat, hover.1, Lane.top?_concat, Option.any_some, hover.2, hdeep, hadvance, ↓reduceIte,
    Bool.false_eq_true]

/-- The session when the same thing has happened `n` times. -/
def recordAll (s : Session) (n : Nat) (event : Event) : Session :=
  { s with events := s.events ++ Array.replicate n event }

theorem recordAll_record (n : Nat) (event : Event) : (s.record event).recordAll n event = s.recordAll (n + 1) event := by
  have hlog : s.events.push event ++ Array.replicate n event = s.events ++ Array.replicate (n + 1) event :=
    Array.toList_inj.mp (by simp [List.replicate_succ])
  rw [recordAll, recordAll, record, hlog]

/-- Passes on a lane whose inner lists are over leave them one after the other, and do nothing else. -/
theorem passes_leave (n : Nat) : ∀ {s : Session} {l : Lane} {own : List Cursor} {times : List Seconds}, s.hasScript →
    s.lane? id = some l → l.cursors = outer ++ below :: own → own.length = n + 1 → (∀ c ∈ own, c.IsOver) →
    (∀ c ∈ outer ++ [below], s.isBroken c = false) → times.length = n + 1 →
    times.foldlM (fun s e => s.pass id e) s =
      some ((s.changeLane id fun _ => ⟨outer ++ [below.advance], true, 0⟩).recordAll (n + 1) (.left id)) := by
  induction n with
  | zero =>
    intro s l own times hscript hl hcursors hown hover hwhole htimes
    obtain ⟨top, rfl⟩ := List.length_eq_one_iff.mp hown
    obtain ⟨e, rfl⟩ := List.length_eq_one_iff.mp htimes
    have hpass := pass_leaves (e := e) hscript hl (by simpa using hcursors) (hover top (by simp)) hwhole
    rw [List.foldlM_cons, hpass, ← recordAll_record]
    rfl
  | succ n ih =>
    intro s l own times hscript hl hcursors hown hover hwhole htimes
    obtain ⟨e, times, rfl⟩ := List.exists_cons_of_length_eq_add_one htimes
    obtain ⟨rest, top, rfl⟩ := List.eq_nil_or_concat own |>.resolve_left (by rintro rfl; cases hown)
    obtain ⟨rest, next, rfl⟩ := List.eq_nil_or_concat rest |>.resolve_left (by rintro rfl; simp at hown)
    simp only [List.concat_eq_append, List.mem_append, List.mem_singleton] at hcursors hown hover
    -- The list below is still over when the lane has gone on in it.
    have hkept : ∀ c ∈ rest ++ [next.advance], c.IsOver := by
      intro c hc
      rcases List.mem_append.mp hc with hc | hc
      · exact hover c (.inl (.inl hc))
      · exact List.mem_singleton.mp hc ▸ (hover next (.inl (.inr rfl))).advance
    have hinner : ∀ c ∈ outer ++ below :: rest ++ [next], s.isBroken c = false := by
      intro c hc
      have hsplit : c ∈ outer ++ [below] ∨ c ∈ rest ∨ c = next := by simpa [or_assoc] using hc
      rcases hsplit with hc | hc | rfl
      · exact hwhole c hc
      · exact isBroken_of_isOver (hover c (.inl (.inl hc)))
      · exact isBroken_of_isOver (hover c (.inl (.inr rfl)))
    have hpass := pass_leaves (e := e) hscript hl (by simpa using hcursors) (hover top (.inr rfl)) hinner
    let left := (s.changeLane id fun _ => ⟨outer ++ below :: rest ++ [next.advance], true, 0⟩).record (.left id)
    have hlane : left.lane? id = some ⟨outer ++ below :: rest ++ [next.advance], true, 0⟩ :=
      lane?_record_changeLane hl _ _
    have hlists : SameLists s left := by cases id <;> exact ⟨rfl, rfl, rfl⟩
    have hworld : left.world = s.world := by cases id <;> rfl
    have htimes' : times.length = n + 1 := by simpa using htimes
    have hrest := ih (hlists.hasScript.trans hscript) hlane (List.append_assoc ..) (by simpa using hown) hkept
      (isBroken_eq hlists hworld ▸ hwhole) htimes'
    rw [List.foldlM_cons, hpass]
    refine hrest.trans ?_
    rw [record_changeLane, changeLane_changeLane, recordAll_record]
    rfl

/-! ### Answers -/

/-- Of the lanes only `id` has changed, and what is asked and what there is to play have not. -/
structure Spares (id : LaneId) (s t : Session) : Prop where
  lists : SameLists s t
  others : ∀ other, other ≠ id → t.lane? other = s.lane? other
  choice : t.choice = s.choice

namespace Spares

theorem trans (h : Spares id s t) (h' : Spares id t u) : Spares id s u :=
  ⟨h.lists.trans h'.lists, fun other hne => (h'.others other hne).trans (h.others other hne), h'.choice.trans h.choice⟩

theorem changeLane (f : Lane → Lane) : Spares id s (s.changeLane id f) :=
  ⟨by cases id <;> exact ⟨rfl, rfl, rfl⟩, fun _ hne => lane?_changeLane_of_ne hne, by cases id <;> rfl⟩

theorem record (event : Event) : Spares id s (s.record event) :=
  ⟨⟨rfl, rfl, rfl⟩, fun other _ => by cases other <;> rfl, rfl⟩

theorem world (world : World) : Spares id s { s with world } :=
  ⟨⟨rfl, rfl, rfl⟩, fun other _ => by cases other <;> rfl, rfl⟩

end Spares

variable {k : Choice} {layer : Cursor} {inner : List Cursor} {answers : List (Answer ListId)} {chosen : Answer ListId}
variable {o : Offer}

/-- The lists above a cursor are left, and the cursor does not loop any more. -/
theorem unwind_lane (hl : s.lane? id = some l) (hcursors : l.cursors = outer ++ layer :: inner) :
    ∃ t, s.unwind id outer.length = some t ∧ t.lane? id = some ⟨outer ++ [layer.release], true, 0⟩ ∧ t.world = s.world ∧
      Spares id s t := by
  obtain ⟨cursors, waiting, time⟩ := l
  subst hcursors
  have hdeep : outer.length < (Lane.mk (outer ++ layer :: inner) waiting time).depth := by simp [Lane.depth]
  have htake : (outer ++ layer :: inner).take (max (outer.length + 1) 1) = outer ++ [layer] := by
    rw [List.append_cons]
    exact List.take_left' (by simp)
  refine ⟨_, by rw [unwind, hl]; exact if_pos hdeep, ?_, by cases id <;> rfl, (Spares.changeLane _).trans (.record _)⟩
  rw [lane?_record_changeLane hl, Lane.truncate, Lane.changeAt, Lane.prime, htake, modify_middle]

/-- What an answer enters, unless there is nothing to do. -/
def reply (s : Session) (k : Choice) (chosen : Answer ListId) : List Cursor :=
  if (s.conversation.list chosen.actions).isEmpty then []
  else [{ s.cursor (.script chosen.actions) with parent := some k.action }]

/-- The session when an answer has been noted. -/
def told (s : Session) (k : Choice) (name? : Option String) (option : Nat) : Session :=
  { (s.changeLane k.lane (Lane.changeAt (k.depth - 1) Cursor.forwardEnd)).record (.selected option) with
    world := s.world.told name? option }

theorem told_spares (name? : Option String) (option : Nat) : Spares k.lane s (s.told k name? option) :=
  ((Spares.changeLane _).trans (.record _)).trans (.world _)

theorem answer_eq {a : Action ListId} {meanwhile : ListId} {name? : Option String} (ha : s.action? k.action = some a)
    (hkind : a.kind = .choice answers meanwhile name?) (hanswer : answers[o.option]? = some chosen) :
    s.answer k o =
      if (s.conversation.list chosen.actions).isEmpty then s.told k name? o.option
      else (s.told k name? o.option).enter k.lane
        { s.cursor (.script chosen.actions) with parent := some k.action } := by
  have hspared : Spares k.lane s (s.told k name? o.option) := told_spares name? o.option
  rw [← hspared.lists.cursor, ← hspared.lists.conversation]
  let noted := (s.changeLane k.lane (Lane.changeAt (k.depth - 1) Cursor.forwardEnd)).record (.selected o.option)
  have hworld : noted.world = s.world := by cases hlane : k.lane <;> simp only [noted, hlane] <;> rfl
  have hasks : (noted.action? k.action).map Action.kind = some (.choice answers meanwhile name?) := by
    have hsame : noted.action? = s.action? := ((Spares.changeLane _).trans (.record _)).lists.action?
    rw [hsame, ha, Option.map_some, hkind]
  have htold : s.told k name? o.option = { noted with world := noted.world.told name? o.option } := by
    rw [hworld, told]
  rw [htold, Session.answer]
  simp only [noted] at hasks
  simp only [hasks, World.told, hanswer]
  cases name?.filter (· ≠ "") <;> rfl

/-- The list that has been playing meanwhile is at its end, and that of the answer starts above it. -/
theorem answer_lane {a : Action ListId} {meanwhile : ListId} {name? : Option String}
    (hl : s.lane? k.lane = some ⟨outer ++ [layer], true, 0⟩) (hdepth : k.depth = outer.length + 1)
    (ha : s.action? k.action = some a) (hkind : a.kind = .choice answers meanwhile name?)
    (hanswer : answers[o.option]? = some chosen) :
    (s.answer k o).lane? k.lane = some ⟨outer ++ layer.forwardEnd :: s.reply k chosen, true, 0⟩ ∧
      (s.answer k o).world = s.world.told name? o.option ∧ Spares k.lane s (s.answer k o) := by
  have hspared : Spares k.lane s (s.told k name? o.option) := told_spares name? o.option
  have hended : (s.told k name? o.option).lane? k.lane = some ⟨outer ++ [layer.forwardEnd], true, 0⟩ := by
    have hnoted := lane?_record_changeLane hl (Lane.changeAt (k.depth - 1) Cursor.forwardEnd) (.selected o.option)
    have hchange : Lane.changeAt (k.depth - 1) Cursor.forwardEnd ⟨outer ++ [layer], true, 0⟩ =
        ⟨outer ++ [layer.forwardEnd], true, 0⟩ := by
      rw [Lane.changeAt, hdepth, Nat.add_sub_cancel, modify_middle]
    rw [hchange] at hnoted
    rw [← hnoted, told]
    cases k.lane <;> rfl
  rw [answer_eq ha hkind hanswer, reply]
  split
  · exact ⟨hended, rfl, hspared⟩
  · refine ⟨?_, by cases k.lane <;> rfl, hspared.trans ((Spares.record _).trans (.changeLane _))⟩
    rw [lane?_enter hended]
    simp [Lane.push, Lane.prime]

/-- An answer that may be given is given: the lists above the one that plays meanwhile are left, that list is at its end,
    and the list of the answer starts above it. -/
theorem select_lane {a : Action ListId} {meanwhile : ListId} {name? : Option String} {i : Nat}
    (hk : s.choice = some k) (hl : s.lane? k.lane = some l) (hcursors : l.cursors = outer ++ layer :: inner)
    (hdepth : k.depth = outer.length + 1) (ha : s.action? k.action = some a)
    (hkind : a.kind = .choice answers meanwhile name?) (ho : k.offers[i]? = some o)
    (hchosen : answers[o.option]? = some chosen) :
    ∃ t, s.select i = (t, true) ∧ t.choice = none ∧ t.world = s.world.told name? o.option ∧
      t.lane? k.lane = some ⟨outer ++ layer.release.forwardEnd :: s.reply k chosen, true, 0⟩ ∧
      SameLists s t ∧ ∀ other, other ≠ k.lane → t.lane? other = s.lane? other := by
  have hasked : ({ s with choice := none } : Session).lane? k.lane = some l := by
    rw [← hl]
    cases k.lane <;> rfl
  obtain ⟨t, ht, hlane, hworld, hspared⟩ := unwind_lane hasked hcursors
  have hlists : SameLists s t := ⟨hspared.lists.conversation, hspared.lists.topic, hspared.lists.preview⟩
  obtain ⟨hlane', hworld', hspared'⟩ := answer_lane (o := o) hlane hdepth (hlists.action? ▸ ha) hkind hchosen
  refine ⟨t.answer k o, ?_, hspared'.choice.trans hspared.choice, ?_, ?_, hlists.trans hspared'.lists,
    fun other hne => ?_⟩
  · have hlayer : k.depth - 1 = outer.length := by omega
    simp only [select, hk, ho, hlayer, ht]
  · rw [hworld', hworld]
  · rw [hlane', reply, reply, hlists.conversation, hlists.cursor]
  · rw [hspared'.others other hne, hspared.others other hne]
    cases other <;> rfl

/-- While the list of an answer plays, the cursors below it stay as the answer has left them. The log tells as long as the
    lane is there, and which lists it is in. -/
theorem reply_stays {ops : List Op} {since : List Event} {inside inside' : Choice.Inside} (ht : t.Sound)
    (hl : t.lane? k.lane = some l) (hcursors : l.cursors = outer ++ below :: layer.release.forwardEnd :: inner)
    (hdepth : k.depth = outer.length + 2) (htopic : layer.topic = none)
    (htopics : inside.topics = inner.map (·.topic.isSome)) (hops : ∀ op ∈ ops, op.Plays) (hu : t.steps ops = some u)
    (hsince : u.events.toList = t.events.toList ++ since) (hread : since.foldlM k.read inside = some inside') :
    ∃ l' own, u.lane? k.lane = some l' ∧ l'.cursors = outer ++ below :: layer.release.forwardEnd :: own ∧
      own.map (·.topic.isSome) = inside'.topics := by
  have hlayered : k.Layered (outer ++ [below]) (· = layer.release.forwardEnd) inside.topics l.cursors := by
    refine ⟨by simpa using hdepth, by simp, ?_, layer.release.forwardEnd, inner, by simp [hcursors], htopics.symm, htopic,
      rfl⟩
    rintro _ rfl
    exact Cursor.advance_forwardEnd rfl
  have hlane : t.cursors? k.lane = some l.cursors := by
    rw [cursors?, hl]
    rfl
  obtain ⟨log, hlog, htells⟩ := (steps_moves ht hops hu).tells ht hlane hlayered
  obtain rfl := List.append_cancel_left (hlog.symm.trans hsince)
  rw [hread] at htells
  obtain ⟨cursors, hlane', hlayered'⟩ := htells (.inl rfl)
  obtain ⟨l', hl', rfl⟩ := cursors?_eq_some hlane'
  obtain ⟨_, own, hsplit, hown, -, rfl⟩ := hlayered'.split
  exact ⟨l', own, hl', by simpa using hsplit, hown⟩

/-- The player answers a choice that is still waiting. The lists above the one that plays meanwhile are left, that list is
    at its end and does not start over, and the list of the answer starts above it, unless it is empty; the variable of
    the choice receives the number of the answer among all answers of the choice. While the log tells that the list of the
    answer plays, or that it is over but has not been left, the cursors below it stay as they are. From then on, whenever
    the list of the answer is over, passes on the lane do nothing but leave the two lists, and the lane goes on after the
    action that has asked. -/
theorem select_goes_on {a : Action ListId} {meanwhile : ListId} {name? : Option String} {i : Nat}
    (hk : s.choice = some k) (hl : s.lane? k.lane = some l) (hcursors : l.cursors = outer ++ below :: layer :: inner)
    (hdepth : k.depth = outer.length + 2) (ha : s.action? k.action = some a)
    (hkind : a.kind = .choice answers meanwhile name?) (ho : k.offers[i]? = some o)
    (hchosen : answers[o.option]? = some chosen) :
    ∃ t, s.select i = (t, true) ∧ t.choice = none ∧
      t.lane? k.lane = some ⟨outer ++ below :: layer.release.forwardEnd :: s.reply k chosen, true, 0⟩ ∧
      (∀ other, other ≠ k.lane → t.lane? other = s.lane? other) ∧
      (∃ value : Int32, value.toInt = min (o.option : Int) 2147483647 ∧
        t.world = (name?.filter (· ≠ "")).elim s.world fun name => s.world.setVariable name value) ∧
      (∀ (ops : List Op) (u : Session) (since : List Event) (inside : Choice.Inside), s.Sound → layer.topic = none →
        (∀ op ∈ ops, op.Plays) → t.steps ops = some u → u.events.toList = t.events.toList ++ since →
        since.foldlM k.read { topics := (s.reply k chosen).map (·.topic.isSome) } = some inside →
        ∃ l' own, u.lane? k.lane = some l' ∧ l'.cursors = outer ++ below :: layer.release.forwardEnd :: own ∧
          own.map (·.topic.isSome) = inside.topics) ∧
      ∀ (u : Session) (l' : Lane) (own : List Cursor) (times : List Seconds), u.hasScript → u.lane? k.lane = some l' →
        l'.cursors = outer ++ below :: layer.release.forwardEnd :: own → (∀ c ∈ own, c.IsOver) →
        (∀ c ∈ outer ++ [below], u.isBroken c = false) → times.length = own.length + 1 →
        times.foldlM (fun u e => u.pass k.lane e) u =
          some ((u.changeLane k.lane fun _ => ⟨outer ++ [below.advance], true, 0⟩).recordAll (own.length + 1)
            (.left k.lane)) := by
  have hcursors' : l.cursors = (outer ++ [below]) ++ layer :: inner := by simpa using hcursors
  obtain ⟨t, ht, hchoice, hworld, hlane, -, hothers⟩ :=
    select_lane hk hl hcursors' (by simpa using hdepth) ha hkind ho hchosen
  refine ⟨t, ht, hchoice, by simpa using hlane, hothers, ⟨_, toInt_saturate o.option, hworld⟩, ?_, ?_⟩
  · intro ops u since inside hs htopic hops hu hsince hread
    have hsound : t.Sound := by
      have hselected := (select_moves s i).sound hs
      rwa [ht] at hselected
    exact reply_stays hsound hlane (by simp) hdepth htopic rfl hops hu hsince hread
  intro u l' own times hscript hl' hshape hover hwhole htimes
  refine passes_leave own.length hscript hl' hshape rfl (fun c hc => ?_) hwhole htimes
  rcases List.mem_cons.mp hc with rfl | hc
  · exact Cursor.isOver_released
  · exact hover c hc

end Session

/-- A choice within a loop. One answer is not offered, and what plays meanwhile has a list of its own. -/
def Document.rapids : Document where
  profiles := []
  values := .empty
  gameCommands := .empty
  files := [{
    id := "tale"
    topics := [
      { id := "rapids"
        block := ⟨[
          { kind := .wait (some (.compareVariable "dawn" .eq ⟨0, none⟩)) ⟨[
            { kind := .choice
                [⟨"swim", some (.compareVariable "brave" .eq ⟨1, none⟩), ⟨[]⟩⟩,
                  ⟨"row", none, ⟨[{ kind := .ifElse [] ⟨[{ kind := .cue (.comment "splash") }]⟩ }]⟩⟩]
                ⟨[{ kind := .ifElse [] ⟨[{ kind := .cue (.comment "drift") }, { kind := .cue (.comment "turn") }]⟩ }]⟩
                (some "way") },
            { kind := .cue (.comment "across") }]⟩ }]⟩ }] }]

/-- Once the player has chosen to row and has rowed, two passes lead back to the loop, which goes on after the choice. -/
theorem select_goes_on_rapids :
    ∃ c s t u v outer below layer inner, Document.rapids.load = .ok c ∧
      (Session.start c (.scripted .zeros) {}).steps
        [.setTopic (some ⟨0⟩), .setRunning true, .update 1, .update 1, .update 1] = some s ∧
      s.main.cursors = outer ++ below :: layer :: inner ∧ outer.length = 1 ∧ inner.length = 1 ∧
      s.select 0 = (t, true) ∧ t.choice = none ∧ t.world.value "way" = 1 ∧
      t.steps [.update 1, .update 1] = some u ∧ u.main.depth = 4 ∧
      [1, 1].foldlM (fun u e => u.pass .main e) u = some v ∧ v.main.cursors = outer ++ [below.advance] := by
  have hplayed : ∃ c, Document.rapids.load = .ok c ∧
      ((Session.start c (.scripted .zeros) {}).steps
        [.setTopic (some ⟨0⟩), .setRunning true, .update 1, .update 1, .update 1]).any fun s => s.choice.any fun k =>
          decide (k.lane = .main ∧ k.depth = 3) && k.offers[0]?.any (·.option == 1) &&
          decide ((s.select 0).1.world.value "way" = 1) &&
          (s.action? k.action).any fun a => a.kind.asked?.any fun asked => asked.1[1]?.any fun chosen =>
          ((s.select 0).1.steps [.update 1, .update 1]).any fun u => u.hasScript &&
            decide (u.events.toList = (s.select 0).1.events.toList ++
              u.events.toList.drop (s.select 0).1.events.toList.length) &&
            ((u.events.toList.drop (s.select 0).1.events.toList.length).foldlM k.read
              { topics := (s.reply k chosen).map (·.topic.isSome) }).any fun inside =>
            s.main.cursors[0]?.any fun root => s.main.cursors[1]?.any fun loop => s.main.cursors[2]?.any fun layer =>
            s.main.cursors[3]?.any fun drifting =>
              decide (s.main.cursors = [root] ++ loop :: layer :: [drifting] ∧ layer.topic = none ∧
                inside.topics.length = 1 ∧ ∀ c ∈ u.main.cursors.drop 3, c.IsOver) &&
              !u.isBroken root && !u.isBroken loop :=
    ⟨_, rfl, by decide +kernel⟩
  obtain ⟨c, hc, hplayed⟩ := hplayed
  obtain ⟨s, hs, hall⟩ := (Option.any_eq_true _ _).mp hplayed
  simp only [Bool.and_eq_true, Option.any_eq_true, decide_eq_true_eq, beq_iff_eq, Bool.not_eq_true'] at hall
  obtain ⟨k, hk, ⟨⟨⟨hlane, hdepth⟩, o, ho, hoption⟩, hway⟩, a, ha, ⟨answers, meanwhile, name?⟩, hasked, chosen, hchosen,
    u, hu, ⟨hscript, hlog⟩, inside, hread, root, -, loop, -, layer, -, drifting, -,
    ⟨⟨hbefore, htopic, hinside, hover⟩, hroot⟩, hloop⟩ := hall
  have hreachable : Session.Reachable c s := (Session.Reachable.start .zeros {}).steps (by simp [Session.Op.Plays]) hs
  obtain ⟨-, -, -, hsound⟩ := hreachable.moves
  obtain ⟨t, ht, hnone, -, -, -, hstays, hlater⟩ := Session.select_goes_on hk (hlane ▸ rfl) hbefore hdepth ha
    (Kind.asked?_eq_some.mp hasked) ho (hoption ▸ hchosen)
  rw [ht] at hway hu hlog hread
  obtain ⟨l, own, hl, hafter, hown⟩ :=
    hstays _ u _ inside hsound htopic (by simp [Session.Op.Plays]) hu hlog hread
  obtain rfl : u.main = l := by
    rw [hlane] at hl
    exact Option.some.inj hl
  have hshort : own.length = 1 := by rw [← hinside, ← hown, List.length_map]
  have hpasses := hlater u u.main own [1, 1] hscript (hlane ▸ rfl) hafter (fun c hmem => hover c (by simp [hafter, hmem]))
    (by simpa using ⟨hroot, hloop⟩) (by simp [hshort])
  rw [hlane] at hpasses
  have hdeep : u.main.depth = 4 := by simp [Lane.depth, hafter, hshort]
  exact ⟨c, s, t, u, _, [root], loop, layer, [drifting], hc, hs, hbefore, rfl, rfl, ht, hnone, hway, hu, hdeep, hpasses,
    rfl⟩

end Dialogue
