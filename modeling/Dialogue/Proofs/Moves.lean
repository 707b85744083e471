import Dialogue.Proofs.Passes

/-! What a host can make of a session that it plays. Between turns a host goes on with the main lane, cancels its loops,
    answers choices and starts over (`Move`). Whatever a host does with these operations is a number of moves
    (`Reachable.moves`). -/

namespace Dialogue
namespace Session
variable {s t u : Session}

/-- The cursors of a lane whose lists above a cursor have been left, and which does not loop there any more. -/
def released (cursors : List Cursor) (depth : Nat) : List Cursor :=
  (cursors.take (depth + 1)).modify depth Cursor.release

/-- The lane has these cursors, and maybe above them one that has entered the list of an answer. -/
structure Answers (id : LaneId) (cursors : List Cursor) (inner : Option Cursor) (log : List Event) (s t : Session) :
    Prop where
  plain : ∀ cur, inner = some cur → cur.looping = false ∧ cur.topic = none
  effect : Effect id (some (cursors ++ inner.toList)) (log ++ inner.toList.map fun cur => .entered id cur.list) s t

/-- What happens in a session, by itself or by its host. -/
inductive Move (s t : Session) : Prop where
  | turn {id} (h : Turn id s t)
  /-- A setting is changed. -/
  | set (h : Effect .main (s.cursors? .main) [] s t) (hchoice : t.choice = s.choice)
  /-- The host goes on with the main lane. -/
  | advanced {cursors} (hlane : s.cursors? .main = some cursors)
      (h : Effect .main (some (Lane.mk cursors true 0).advance.1.cursors) (leaving .main cursors) s t)
      (hchoice : t.choice = s.choice)
  /-- The host cancels a loop of the main lane. -/
  | cancelled {cursors depth} (hlane : s.cursors? .main = some cursors) (hdepth : depth < cursors.length)
      (h : Effect .main (some (released cursors depth)) [.loopCancelled .main depth] s t)
      (hchoice : t.choice = s.choice)
  /-- An answer is taken: the lists within the choice are left for that of the answer, if there is one. -/
  | answered {k o inner} {cursors : List Cursor} (hk : s.choice = some k) (hlane : s.cursors? k.lane = some cursors)
      (hdepth : k.depth - 1 < cursors.length)
      (h : Answers k.lane ((released cursors (k.depth - 1)).modify (k.depth - 1) Cursor.forwardEnd) inner
        [.loopCancelled k.lane (k.depth - 1), .selected o] s t)
      (hchoice : t.choice = none)
  /-- An answer comes too late. -/
  | dismissed {k} (hk : s.choice = some k)
      (hgone : ∀ cursors, s.cursors? k.lane = some cursors → cursors.length ≤ k.depth - 1)
      (h : Effect .main (s.cursors? .main) [] s t) (hchoice : t.choice = none)
  /-- Playback starts over. -/
  | rewound (hconversation : t.conversation = s.conversation)
      (hscripted : (∃ chance, s.interpreter = .scripted chance) → ∃ chance, t.interpreter = .scripted chance)
      (hmain : t.main.IsFresh) (hsides : t.sides = []) (hlog : t.events.toList = s.events.toList ++ [.rewound])
      (hchoice : t.choice = none)

theorem looping_of_fresh {id : LaneId} {cursors : List Cursor} {cur : Cursor} {i : Nat} (hmain : s.main.IsFresh)
    (hsides : s.sides = []) (hlane : s.cursors? id = some cursors) (hcur : cursors[i]? = some cur) :
    cur.looping = false := by
  cases id with
  | main =>
    cases hlane
    exact hmain.2 cur (List.mem_of_getElem? hcur)
  | side n =>
    rw [cursors?, lane?, hsides] at hlane
    cases hlane

abbrev Moves : Session → Session → Prop := Relation.ReflTransGen Move

theorem Turns.moves (h : Turns s t) : Moves s t :=
  Relation.ReflTransGen.mono (fun _ _ ⟨_, _, hturn⟩ => .turn hturn) _ _ h

/-! ### What every move keeps -/

theorem Move.sound (h : Move s t) (hs : s.Sound) : t.Sound := by
  cases h with
  | turn h =>
    obtain ⟨_, _, heffect⟩ := h.effect
    exact hs.later heffect.since
  | set h | advanced _ h | cancelled _ _ h | dismissed _ _ h => exact hs.later h.since
  | answered _ _ _ h => exact hs.later h.effect.since
  | rewound _ hscripted _ hsides =>
    refine ⟨hscripted hs.scripted, ?_⟩
    rw [Numbered, hsides]
    intro n l hmem
    cases hmem

theorem Move.log (h : Move s t) : s.events.toList <+: t.events.toList := by
  cases h with
  | turn h =>
    obtain ⟨_, _, heffect⟩ := h.effect
    exact heffect.since.log
  | set h | advanced _ h | cancelled _ _ h | dismissed _ _ h => exact h.since.log
  | answered _ _ _ h => exact h.effect.since.log
  | rewound _ _ _ _ hlog => exact ⟨_, hlog.symm⟩

theorem Moves.sound (h : Moves s t) (hs : s.Sound) : t.Sound := by
  induction h with
  | refl => exact hs
  | tail _ hmove ih => exact hmove.sound ih

/-! ### Operations of the host -/

variable {id : LaneId} {cursors : List Cursor}

theorem eq_of_unwind {depth : Nat} (h : s.unwind id depth = some t) :
    ∃ l, s.lane? id = some l ∧ depth < l.depth ∧
      t = (s.changeLane id fun l => ((l.truncate (depth + 1)).changeAt depth Cursor.release).prime).record
        (.loopCancelled id depth) := by
  unfold unwind at h
  split at h
  · cases h
  · rename_i l hl
    split at h
    · rename_i hdepth
      exact ⟨l, hl, hdepth, (Option.some.inj h).symm⟩
    · cases h

theorem unwind_effect {depth : Nat} (h : s.unwind id depth = some t) :
    ∃ cursors, s.cursors? id = some cursors ∧ depth < cursors.length ∧
      Effect id (some (released cursors depth)) [.loopCancelled id depth] s t ∧ Quiet s t := by
  obtain ⟨l, hl, hdepth, rfl⟩ := eq_of_unwind h
  have hrelease := Effect.changeLane hl fun l => ((l.truncate (depth + 1)).changeAt depth Cursor.release).prime
  have hkept :
      (((l.truncate (depth + 1)).changeAt depth Cursor.release).prime).cursors = released l.cursors depth := by
    simp [Lane.prime, Lane.changeAt, Lane.truncate, released]
  rw [hkept] at hrelease
  have hlog := Effect.record (s := s.changeLane id fun l =>
    ((l.truncate (depth + 1)).changeAt depth Cursor.release).prime) id (.loopCancelled id depth)
  rw [hrelease.lane] at hlog
  exact ⟨l.cursors, by rw [cursors?, hl]; rfl, hdepth, hrelease.trans hlog, quiet_changeLane.trans ⟨rfl, rfl, rfl⟩⟩

theorem length_le_of_unwind {depth : Nat} (h : s.unwind id depth = none) (hlane : s.cursors? id = some cursors) :
    cursors.length ≤ depth := by
  obtain ⟨l, hl, rfl⟩ := cursors?_eq_some hlane
  unfold unwind at h
  rw [hl] at h
  simp only at h
  split at h
  · cases h
  · rename_i hdepth
    exact Nat.le_of_not_lt hdepth

/-- An answer is noted, the variable of the choice is set if there is one, and then the list of the answer is entered, if
    there is one and the choice is an action. -/
theorem answer_sets (k : Choice) (o : Offer) :
    ∃ r q values, r = (s.changeLane k.lane (Lane.changeAt (k.depth - 1) Cursor.forwardEnd)).record (.selected o.option) ∧
      q = { r with world := { r.world with values } } ∧
      (s.answer k o = q ∨ ∃ list, (q.action? k.action).isSome ∧
        s.answer k o = q.enter k.lane { q.cursor (.script list) with parent := some k.action }) := by
  unfold answer
  simp only
  generalize (s.changeLane k.lane (Lane.changeAt (k.depth - 1) Cursor.forwardEnd)).record (.selected o.option) = r
  refine ⟨r, ?_⟩
  split
  · rename_i answers _ variableName hasks
    -- The variable is set before the list of the answer is entered.
    obtain ⟨q, values, hq, hset⟩ : ∃ q values, q = { r with world := { r.world with values } } ∧
        q = (variableName.filter (· ≠ "")).elim r fun name =>
          { r with world := r.world.setVariable name (saturate o.option) } := by
      cases variableName.filter (· ≠ "") with
      | none => exact ⟨r, r.world.values, rfl, rfl⟩
      | some name => exact ⟨_, _, rfl, rfl⟩
    have hthere : (q.action? k.action).isSome := by
      obtain ⟨a, ha, -⟩ := Option.map_eq_some_iff.mp hasks
      have hsame : q.action? k.action = r.action? k.action := by
        rw [hq]
        rfl
      rw [hsame, ha]
      rfl
    refine ⟨q, values, rfl, hq, ?_⟩
    cases hname : variableName.filter (· ≠ "") <;> rw [hname] at hset <;> subst hset <;>
      cases answers[o.option]? with
      | none => exact .inl rfl
      | some a =>
        simp only
        split
        · exact .inl rfl
        · exact .inr ⟨a.actions, hthere, rfl⟩
  · exact ⟨r, r.world.values, rfl, rfl, .inl rfl⟩

/-- Before the list of an answer is entered, the answer is noted and nothing else happens to the lanes. -/
theorem answer_cases (k : Choice) (o : Offer) :
    ∃ q, Stage ((s.changeLane k.lane (Lane.changeAt (k.depth - 1) Cursor.forwardEnd)).record (.selected o.option)) q ∧
      (s.answer k o = q ∨ ∃ list, (q.action? k.action).isSome ∧
        s.answer k o = q.enter k.lane { q.cursor (.script list) with parent := some k.action }) := by
  obtain ⟨r, q, values, rfl, rfl, hanswer⟩ := answer_sets (s := s) k o
  exact ⟨_, stage_world _, hanswer⟩

theorem answer_effect {k : Choice} (o : Offer) (hlane : s.cursors? k.lane = some cursors) :
    ∃ inner, Answers k.lane (cursors.modify (k.depth - 1) Cursor.forwardEnd) inner [.selected o.option] s (s.answer k o) ∧
      Quiet s (s.answer k o) := by
  obtain ⟨l, hl, rfl⟩ := cursors?_eq_some hlane
  have hend := Effect.changeLane hl (Lane.changeAt (k.depth - 1) Cursor.forwardEnd)
  have hlog := Effect.record (s := s.changeLane k.lane (Lane.changeAt (k.depth - 1) Cursor.forwardEnd)) k.lane
    (.selected o.option)
  rw [hend.lane] at hlog
  have hselected := hend.trans hlog
  have hquiet : Quiet s ((s.changeLane k.lane (Lane.changeAt (k.depth - 1) Cursor.forwardEnd)).record
      (.selected o.option)) := quiet_changeLane.trans ⟨rfl, rfl, rfl⟩
  have hcursors : (l.changeAt (k.depth - 1) Cursor.forwardEnd).cursors =
      l.cursors.modify (k.depth - 1) Cursor.forwardEnd := rfl
  rw [hcursors] at hselected
  obtain ⟨q, hq, hanswer⟩ := answer_cases (s := s) k o
  have hall := hselected.trans (hq.effect k.lane)
  rw [hselected.lane] at hall
  obtain hsame | ⟨list, -, henter⟩ := hanswer
  · rw [hsame]
    exact ⟨none, ⟨nofun, by simpa using hall⟩, hquiet.trans hq.quiet⟩
  · rw [henter]
    refine ⟨some _, ⟨?_, hall.trans (.enter hall.lane _)⟩, hquiet.trans (hq.quiet.trans quiet_enter)⟩
    intro cur hcur
    cases hcur
    exact ⟨rfl, rfl⟩

/-- If there is such an offer, the choice is over, and the offer is taken unless its lane has gone. -/
theorem select_cases (s : Session) (index : Nat) :
    (s.select index).1 = s ∨ ∃ k, s.choice = some k ∧
      (({ s with choice := none } : Session).unwind k.lane (k.depth - 1) = none ∧
          (s.select index).1 = { s with choice := none } ∨
        ∃ o u, ({ s with choice := none } : Session).unwind k.lane (k.depth - 1) = some u ∧
          (s.select index).1 = u.answer k o) := by
  unfold select
  split
  · exact .inl rfl
  · rename_i k hk
    split
    · exact .inl rfl
    · rename_i o _
      refine .inr ⟨k, hk, ?_⟩
      simp only
      split
      · rename_i hnone
        exact .inl ⟨hnone, rfl⟩
      · rename_i u hu
        exact .inr ⟨o, u, hu, rfl⟩

theorem select_moves (s : Session) (index : Nat) : Moves s (s.select index).1 := by
  obtain hsame | ⟨k, hk, ⟨hnone, hcleared⟩ | ⟨o, u, hu, hanswered⟩⟩ := select_cases s index
  · rw [hsame]
  · have hclear : Effect .main (s.cursors? .main) [] s { s with choice := none } :=
      .calm .main ⟨rfl, rfl, rfl, rfl, fun h => h⟩ rfl rfl rfl rfl
    rw [hcleared]
    exact .single (.dismissed hk (fun cursors hlane => length_le_of_unwind hnone hlane) hclear rfl)
  · obtain ⟨cursors, hlane, hdepth, hunwind, hquiet⟩ := unwind_effect hu
    obtain ⟨inner, ⟨hplain, hanswer⟩, hquiet'⟩ := answer_effect o hunwind.lane
    have hclear : Effect k.lane (s.cursors? k.lane) [] s { s with choice := none } :=
      .calm k.lane ⟨rfl, rfl, rfl, rfl, fun h => h⟩ rfl rfl rfl rfl
    have hnone : (u.answer k o).choice = none := hquiet'.choice.trans hquiet.choice
    rw [hanswered]
    exact .single (.answered hk hlane hdepth ⟨hplain, hclear.trans (hunwind.trans hanswer)⟩ hnone)

theorem advance_moves (s : Session) : Moves s (s.advance .main) := by
  by_cases hscript : s.hasScript
  · by_cases hempty : s.main.cursors = []
    · have hstart : Turns s (if LaneId.main = .main ∧ s.main.cursors.isEmpty then s.advance .main else s) :=
        start_course trivial hscript
      rw [if_pos ⟨rfl, by simp [hempty]⟩] at hstart
      exact hstart.moves
    · have hlane : s.cursors? .main = some s.main.cursors := rfl
      exact .single (.advanced hlane (.advance hscript hlane hempty) (quiet_advance hscript).choice)
  · have hstop : s.advance .main = { s with running := false } := by simp [advance, hscript]
    rw [hstop]
    exact .single (.set (.calm .main ⟨rfl, rfl, rfl, rfl, fun h => h⟩ rfl rfl rfl rfl) rfl)

theorem isFresh_root {waiting : Bool} {time : Seconds} : (Lane.mk s.root?.toList waiting time).IsFresh := by
  unfold root? topicCursor?
  split
  · simp [Lane.IsFresh, cursor]
  · cases s.topic with
    | none => simp [Lane.IsFresh]
    | some topic => cases s.conversation.topic? topic <;> simp [Lane.IsFresh, cursor]

theorem events_rewind : s.rewind.events.toList = s.events.toList ++ [.rewound] := by
  simp only [rewind, advance]
  split <;> simp [lane?, record, syncSlots, changeLane]

theorem rewind_move (hconversation : t.conversation = s.conversation) (hinterpreter : t.interpreter = s.interpreter)
    (hlog : t.events = s.events) : Move s t.rewind := by
  obtain ⟨r, hr, hmain, hsides, hconversation', hinterpreter', hevents, hchoice⟩ :
      ∃ r : Session, t.rewind = r.advance .main ∧ r.main = {} ∧ r.sides = [] ∧ r.conversation = s.conversation ∧
        r.interpreter = s.interpreter ∧ r.events.toList = s.events.toList ++ [.rewound] ∧ r.choice = none :=
    ⟨_, rfl, rfl, rfl, hconversation, hinterpreter, by simp [record, syncSlots, hlog], rfl⟩
  rw [hr]
  by_cases hscript : r.hasScript
  · have hroot : r.advance .main = { r with main := { r.main with cursors := r.root?.toList }.prime } := by
      simp [advance, hscript, lane?, hmain, changeLane]
    rw [hroot]
    exact .rewound hconversation' (fun h => hinterpreter' ▸ h) isFresh_root hsides hevents hchoice
  · have hstop : r.advance .main = { r with running := false } := by simp [advance, hscript]
    have hfresh : r.main.IsFresh := by simp [Lane.IsFresh, hmain]
    rw [hstop]
    exact .rewound hconversation' (fun h => hinterpreter' ▸ h) hfresh hsides hevents hchoice

/-- The operations with which a host plays a conversation. -/
def Op.Plays : Op → Prop
  | .setTopic _ | .setRunning _ | .setPaused _ | .update _ | .rewind | .advance | .fastForward | .cancelLoop _
  | .select _ | .playSingle _ _ => True
  | _ => False

theorem step_moves {op : Op} {reply : Reply} (hs : s.Sound) (hop : op.Plays) (h : s.step op = some (t, reply)) :
    Moves s t := by
  cases op with
  | setTopic topic =>
    cases h
    unfold setTopic
    split
    · exact .refl
    · exact .single (rewind_move rfl rfl rfl)
  | setRunning value =>
    cases h
    exact .single (.set (.calm .main ⟨rfl, rfl, rfl, rfl, fun h => h⟩ rfl rfl rfl rfl) rfl)
  | setPaused value =>
    cases h
    exact .single (.set (.calm .main ⟨rfl, rfl, rfl, rfl, fun h => h⟩ rfl rfl rfl rfl) rfl)
  | update e =>
    obtain ⟨u, hu, hreply⟩ := Option.bind_eq_some_iff.mp h
    cases hreply
    exact (update_turns hs hu).moves
  | rewind =>
    cases h
    exact .single (rewind_move rfl rfl rfl)
  | advance =>
    cases h
    exact advance_moves s
  | fastForward =>
    obtain ⟨⟨u, count⟩, hu, hreply⟩ := Option.bind_eq_some_iff.mp h
    cases hreply
    exact (skipSpeech_turns _ _ hs hu).moves
  | cancelLoop depth =>
    cases h
    unfold cancelLoop
    cases hu : s.unwind .main depth with
    | none => exact .refl
    | some u =>
      obtain ⟨cursors, hlane, hdepth, heffect, hquiet⟩ := unwind_effect hu
      exact .single (.cancelled hlane hdepth heffect hquiet.choice)
  | select index =>
    cases h
    exact select_moves s index
  | playSingle action seconds =>
    obtain ⟨u, hu, hreply⟩ := Option.bind_eq_some_iff.mp h
    cases hreply
    have hrewind : Move s ({ s with preview := some action } : Session).rewind := rewind_move rfl rfl rfl
    have hset : ∀ r : Session, Move r { r with running := true, paused := false } := fun r =>
      .set (.calm .main ⟨rfl, rfl, rfl, rfl, fun h => h⟩ rfl rfl rfl rfl) rfl
    have hrewound := (Relation.ReflTransGen.single hrewind).tail (hset _)
    unfold playSingle at hu
    simp only at hu
    split at hu
    · exact hrewound.trans (update_turns (Moves.sound hrewound hs) hu).moves
    · cases hu
      exact hrewound
  | setAutoAdvance | addSide | addActor | removeActor | speech | world | takeInfo | takeEvents => cases hop

/-- The states of a session that plays a conversation. -/
inductive Reachable (c : Conversation) : Session → Prop where
  | start (chance : Chance) (options : Options) : Reachable c (.start c (.scripted chance) options)
  | step {s t : Session} {op : Op} {reply : Reply} (hs : Reachable c s) (hop : op.Plays)
      (h : s.step op = some (t, reply)) : Reachable c t

/-- What a host gets by a number of operations. -/
def steps (s : Session) (ops : List Op) : Option Session := ops.foldlM (fun s op => (·.1) <$> s.step op) s

theorem steps_moves {ops : List Op} (hs : s.Sound) (hops : ∀ op ∈ ops, op.Plays) (h : s.steps ops = some t) :
    Moves s t := by
  induction ops generalizing s with
  | nil =>
    cases h
    exact .refl
  | cons op ops ih =>
    obtain ⟨u, hu, hrest⟩ := Option.bind_eq_some_iff.mp h
    obtain ⟨⟨u, reply⟩, hstep, rfl⟩ := Option.map_eq_some_iff.mp hu
    have hmoves := step_moves hs (hops op List.mem_cons_self) hstep
    exact hmoves.trans (ih (hmoves.sound hs) (fun op hop => hops op (List.mem_cons_of_mem _ hop)) hrest)

variable {c : Conversation}

theorem Reachable.steps {ops : List Op} (hs : Reachable c s) (hops : ∀ op ∈ ops, op.Plays) (h : s.steps ops = some t) :
    Reachable c t := by
  induction ops generalizing s with
  | nil =>
    cases h
    exact hs
  | cons op ops ih =>
    obtain ⟨u, hu, hrest⟩ := Option.bind_eq_some_iff.mp h
    obtain ⟨⟨u, reply⟩, hstep, rfl⟩ := Option.map_eq_some_iff.mp hu
    exact ih (.step hs (hops op List.mem_cons_self) hstep) (fun op hop => hops op (List.mem_cons_of_mem _ hop)) hrest

/-- A state that is found by playing a document. -/
theorem exists_reachable {d : Document} {chance : Chance} {options : Options} {ops : List Op} {p : Session → Bool}
    (hops : ∀ op ∈ ops, op.Plays)
    (h : ∃ c, d.load = .ok c ∧ ((Session.start c (.scripted chance) options).steps ops).any p) :
    ∃ c s, d.load = .ok c ∧ Reachable c s ∧ p s := by
  obtain ⟨c, hc, hplayed⟩ := h
  obtain ⟨s, hs, hp⟩ := (Option.any_eq_true _ _).mp hplayed
  exact ⟨c, s, hc, (Reachable.start chance options).steps hops hs, hp⟩

/-- Everything that a host does is made of moves. -/
theorem Reachable.moves (h : Reachable c t) :
    ∃ chance options, Moves (.start c (.scripted chance) options) t ∧ t.Sound := by
  induction h with
  | start chance options =>
    exact ⟨chance, options, .refl, ⟨⟨chance, rfl⟩, fun n l hmem => nomatch hmem⟩⟩
  | step _ hop h ih =>
    obtain ⟨chance, options, hmoves, hsound⟩ := ih
    have hstep := step_moves hsound hop h
    exact ⟨chance, options, hmoves.trans hstep, hstep.sound hsound⟩

end Session
end Dialogue
