import Dialogue.Proofs.Arising

/-! Side lanes in the log. What the log tells of side lanes is enough to know which of them are there (`Roster.read`),
    and every request tells what it does to them (`Registers`). So the log that a session has written since its start,
    whatever the host has taken of it, has numbers that are given out one after the other and never again, and a side
    lane is there exactly if the log tells that it has been added and does not tell that it has gone (`lanes_logged`). -/

namespace Dialogue

/-- The numbers of the side lanes, and the number of the next one. -/
structure Roster where
  alive : List Nat
  next : Nat

namespace Roster
variable {r r' : Roster} {event : Event} {log : List Event} {n : Nat}

/-- What an event makes of a roster, if it can happen. -/
def note (r : Roster) : Event → Option Roster
  | .laneAdded n => if n = r.next then some ⟨r.alive ++ [n], n + 1⟩ else none
  | .laneRemoved n => if n ∈ r.alive then some { r with alive := r.alive.filter (· ≠ n) } else none
  | .rewound => some { r with alive := [] }
  | _ => some r

/-- What a log makes of a roster. -/
def read (r : Roster) (log : List Event) : Option Roster := log.foldlM note r

theorem read_append (log log' : List Event) : r.read (log ++ log') = (r.read log).bind (·.read log') :=
  List.foldlM_append

theorem read_singleton (event : Event) : r.read [event] = r.note event := by
  simp [read]

end Roster

/-- The number of the side lane that an event adds. -/
def Event.added? : Event → Option Nat
  | .laneAdded n => some n
  | _ => none

/-- Whether an event is about which side lanes there are. -/
def Event.isRoster : Event → Bool
  | .laneAdded _ | .laneRemoved _ | .rewound => true
  | _ => false

/-- A log tells that a side lane is there: it has been added since playback has last started over, and has not been
    removed since. -/
def IsLogged (log : List Event) (n : Nat) : Prop :=
  ∃ before after, log = before ++ .laneAdded n :: after ∧ .rewound ∉ after ∧ .laneRemoved n ∉ after

/-- What a log says that starts with no side lanes. -/
structure Roster.Reads (log : List Event) (r : Roster) : Prop where
  added : ∃ count, r.next = count + 1 ∧ log.filterMap Event.added? = List.range' 1 count
  alive : ∀ n, n ∈ r.alive ↔ IsLogged log n
  known : ∀ n ∈ r.alive, n < r.next
  gone : ∀ n, .laneRemoved n ∈ log → n < r.next ∧ n ∉ r.alive
  once : ∀ n, log.count (.laneRemoved n) ≤ 1

/-- Where something comes in a list, in terms of the last element of the list. -/
theorem exists_split_concat {α : Type} {P : List α → Prop} {l : List α} {x y : α} :
    (∃ before after, l ++ [y] = before ++ x :: after ∧ P after) ↔
      y = x ∧ P [] ∨ ∃ before after, l = before ++ x :: after ∧ P (after ++ [y]) := by
  constructor
  · rintro ⟨before, after, hsplit, hafter⟩
    rcases List.eq_nil_or_concat after with rfl | ⟨rest, last, rfl⟩
    · exact .inl ⟨List.singleton_inj.mp (List.append_inj_right' hsplit rfl), hafter⟩
    · rw [List.concat_eq_append] at hsplit hafter
      rw [← List.cons_append, ← List.append_assoc] at hsplit
      obtain ⟨rfl, hlast⟩ := List.append_inj' hsplit rfl
      obtain rfl := List.singleton_inj.mp hlast
      exact .inr ⟨before, rest, rfl, hafter⟩
  · rintro (⟨rfl, hnil⟩ | ⟨before, after, rfl, hafter⟩)
    · exact ⟨l, [], rfl, hnil⟩
    · exact ⟨before, after ++ [y], by simp, hafter⟩

theorem isLogged_concat {log : List Event} {event : Event} {n : Nat} :
    IsLogged (log ++ [event]) n ↔
      event = .laneAdded n ∨ IsLogged log n ∧ event ≠ .rewound ∧ event ≠ .laneRemoved n := by
  rw [IsLogged, exists_split_concat (P := fun after => Event.rewound ∉ after ∧ Event.laneRemoved n ∉ after)]
  simp only [List.not_mem_nil, not_false_eq_true, and_self, and_true, List.mem_append, List.mem_singleton, not_or]
  refine or_congr_right ⟨?_, ?_⟩
  · rintro ⟨before, after, hsplit, ⟨hrewound, hrewinds⟩, hremoved, hremoves⟩
    exact ⟨⟨before, after, hsplit, hrewound, hremoved⟩, Ne.symm hrewinds, Ne.symm hremoves⟩
  · rintro ⟨⟨before, after, hsplit, hrewound, hremoved⟩, hrewinds, hremoves⟩
    exact ⟨before, after, hsplit, ⟨hrewound, Ne.symm hrewinds⟩, hremoved, Ne.symm hremoves⟩

namespace Roster
variable {r r' : Roster} {event : Event} {log : List Event} {n : Nat}

theorem note_of_other (h : event.isRoster = false) : r.note event = some r := by
  cases event <;> first | rfl | cases h

theorem Reads.nil : Reads [] ⟨[], 1⟩ where
  added := ⟨0, rfl, rfl⟩
  alive n := by simp [IsLogged]
  known := by simp
  gone := by simp
  once := by simp

theorem filterMap_added?_concat (h : event.added? = none) :
    (log ++ [event]).filterMap Event.added? = log.filterMap Event.added? := by
  rw [List.filterMap_append, List.filterMap_cons_none h, List.filterMap_nil, List.append_nil]

theorem count_laneRemoved_concat (hne : event ≠ .laneRemoved n) :
    (log ++ [event]).count (.laneRemoved n) = log.count (.laneRemoved n) := by
  rw [List.count_append, List.count_singleton, if_neg (by simpa using hne), Nat.add_zero]

/-- An added side lane has the next number, which no side lane has had. -/
theorem Reads.laneAdded (h : Reads log r) : Reads (log ++ [.laneAdded r.next]) ⟨r.alive ++ [r.next], r.next + 1⟩ where
  added := by
    obtain ⟨count, hnext, hadded⟩ := h.added
    refine ⟨count + 1, by rw [hnext], ?_⟩
    rw [List.filterMap_append, hadded, List.range'_concat, hnext]
    simp [Event.added?, Nat.add_comm]
  alive n := by
    rw [isLogged_concat, ← h.alive]
    simp [or_comm, eq_comm]
  known n hn := by
    rcases List.mem_append.mp hn with hn | hn
    · exact Nat.lt_succ_of_lt (h.known n hn)
    · exact List.mem_singleton.mp hn ▸ Nat.lt_succ_self _
  gone n hn := by
    obtain ⟨hlt, habsent⟩ := h.gone n (by simpa using hn)
    exact ⟨Nat.lt_succ_of_lt hlt, by simp [habsent, Nat.ne_of_lt hlt]⟩
  once n := Nat.le_trans (Nat.le_of_eq (count_laneRemoved_concat (by simp))) (h.once n)

/-- A removed side lane is there, so it has not been removed before. -/
theorem Reads.laneRemoved (h : Reads log r) (hn : n ∈ r.alive) :
    Reads (log ++ [.laneRemoved n]) { r with alive := r.alive.filter (· ≠ n) } where
  added := by
    rw [filterMap_added?_concat rfl]
    exact h.added
  alive k := by
    rw [isLogged_concat, ← h.alive]
    simp [ne_comm]
  known k hk := h.known k (List.mem_filter.mp hk).1
  gone k hk := by
    rcases List.mem_append.mp hk with hk | hk
    · obtain ⟨hlt, habsent⟩ := h.gone k hk
      exact ⟨hlt, fun hmem => habsent (List.mem_filter.mp hmem).1⟩
    · obtain rfl : k = n := by simpa using hk
      exact ⟨h.known k hn, by simp⟩
  once k := by
    by_cases heq : n = k
    · subst heq
      have hnever : log.count (.laneRemoved n) = 0 := List.count_eq_zero.mpr fun hmem => (h.gone n hmem).2 hn
      rw [List.count_append, hnever, List.count_singleton, Nat.zero_add]
      split <;> decide
    · rw [count_laneRemoved_concat (by simpa using heq)]
      exact h.once k

theorem Reads.rewound (h : Reads log r) : Reads (log ++ [.rewound]) { r with alive := [] } where
  added := by
    rw [filterMap_added?_concat rfl]
    exact h.added
  alive n := by simp [isLogged_concat]
  known := by simp
  gone n hn := ⟨(h.gone n (by simpa using hn)).1, List.not_mem_nil⟩
  once n := Nat.le_trans (Nat.le_of_eq (count_laneRemoved_concat (by simp))) (h.once n)

theorem Reads.other (h : Reads log r) (hevent : event.isRoster = false) : Reads (log ++ [event]) r := by
  have hadds (n : Nat) : event ≠ .laneAdded n := fun heq => by simp [heq, Event.isRoster] at hevent
  have hremoves (n : Nat) : event ≠ .laneRemoved n := fun heq => by simp [heq, Event.isRoster] at hevent
  have hrewinds : event ≠ .rewound := fun heq => by simp [heq, Event.isRoster] at hevent
  have hadded : event.added? = none := by
    cases event <;> first | rfl | cases hevent
  refine ⟨by rw [filterMap_added?_concat hadded]; exact h.added, fun n => ?_, h.known, fun n hn => ?_, fun n => ?_⟩
  · rw [isLogged_concat, ← h.alive]
    simp [hadds, hremoves, hrewinds]
  · exact h.gone n (by simpa [Ne.symm (hremoves n)] using hn)
  · rw [count_laneRemoved_concat (hremoves n)]
    exact h.once n

/-- What one more event says. -/
theorem Reads.note (h : Reads log r) (hnote : r.note event = some r') : Reads (log ++ [event]) r' := by
  cases event with
  | laneAdded n =>
    simp only [Roster.note, Option.ite_none_right_eq_some, Option.some.injEq] at hnote
    obtain ⟨rfl, rfl⟩ := hnote
    exact h.laneAdded
  | laneRemoved n =>
    simp only [Roster.note, Option.ite_none_right_eq_some, Option.some.injEq] at hnote
    obtain ⟨hn, rfl⟩ := hnote
    exact h.laneRemoved hn
  | rewound =>
    cases hnote
    exact h.rewound
  | _ =>
    cases hnote
    exact h.other rfl

theorem Reads.read {log' : List Event} (h : Reads log r) (hread : r.read log' = some r') : Reads (log ++ log') r' := by
  induction log' generalizing log r with
  | nil =>
    cases hread
    simpa using h
  | cons event log' ih =>
    obtain ⟨next, hnote, hrest⟩ := Option.bind_eq_some_iff.mp hread
    rw [List.append_cons]
    exact ih (h.note hnote) hrest

end Roster

namespace Session
variable {c : Conversation} {s t u : Session} {id : LaneId} {e : Seconds} {l : Lane} {ref : ActionRef}
variable {a : Action ListId} {start : Session → Lane → Option Session}

def roster (s : Session) : Roster := ⟨s.numbers, s.nextSide⟩

/-- The log tells what has become of the side lanes. -/
def Registers (s t : Session) : Prop :=
  ∃ log, t.events.toList = s.events.toList ++ log ∧ s.roster.read log = some t.roster

namespace Registers

/-- Nothing becomes of the side lanes. -/
theorem calm (hnumbers : t.numbers = s.numbers) (hnext : t.nextSide = s.nextSide) (hevents : t.events = s.events) :
    Registers s t := ⟨[], by simp [hevents], by rw [roster, roster, hnumbers, hnext]; rfl⟩

theorem refl (s : Session) : Registers s s := calm rfl rfl rfl

theorem trans (h : Registers s t) (h' : Registers t u) : Registers s u := by
  obtain ⟨log, hlog, hread⟩ := h
  obtain ⟨log', hlog', hread'⟩ := h'
  refine ⟨log ++ log', by rw [hlog', hlog, List.append_assoc], ?_⟩
  rw [Roster.read_append, hread, Option.bind_some, hread']

/-- Something happens that is not about which side lanes there are. -/
theorem record {event : Event} (h : event.isRoster = false) : Registers s (s.record event) :=
  ⟨[event], by simp [Session.record], by rw [Roster.read_singleton, Roster.note_of_other h]; rfl⟩

theorem addLane (l : Lane) : Registers s (s.addLane l) :=
  ⟨[.laneAdded s.nextSide], by simp [Session.addLane, Session.record], by
    simp [Roster.read_singleton, Roster.note, roster, Session.addLane, Session.record, numbers]⟩

theorem removeLane {n : Nat} (hn : n ∈ s.numbers) : Registers s (s.removeLane n) := by
  refine ⟨[.laneRemoved n], by simp [Session.removeLane, Session.record], ?_⟩
  have hnumbers : (s.removeLane n).numbers = s.numbers.filter (· ≠ n) := by
    simp [numbers, Session.removeLane, Session.record, List.filter_map, Function.comp_def]
  rw [Roster.read_singleton, Roster.note, roster, roster, hnumbers, if_pos hn]
  rfl

theorem changeLane (f : Lane → Lane) : Registers s (s.changeLane id f) :=
  calm (Alters.numbers_changeLane f) (by cases id <;> rfl) (by cases id <;> rfl)

theorem enter (cur : Cursor) : Registers s (s.enter id cur) := (record rfl).trans (changeLane _)

theorem advance (id : LaneId) : Registers s (s.advance id) := by
  unfold Session.advance
  split
  · split
    · exact refl s
    · split
      · exact changeLane _
      · simp only
        split
        · exact (changeLane _).trans (record rfl)
        · exact changeLane _
  · exact calm rfl rfl rfl

theorem goOn (h : Registers s t) : Registers s (t.advance id) := h.trans (advance id)

theorem stage (h : Stage s t) : Registers s t := calm (by rw [numbers, h.sides, numbers]) h.nextSide h.events

theorem announce (info : String) : Registers s (s.announce id info) := by
  unfold Session.announce
  split
  · exact advance id
  · exact calm rfl rfl rfl

theorem removeActor (name : String) : Registers s (s.removeActor name) := by
  unfold Session.removeActor
  simp only
  split
  · exact calm rfl rfl rfl
  · exact (calm rfl rfl rfl : Registers s _).trans (record rfl)

theorem ask (answers : List (Answer ListId)) (meanwhile : ListId) : Registers s (s.ask id ref answers meanwhile) := by
  have henter : Registers s (s.enter id { s.cursor (.script meanwhile) with parent := some ref, looping := true }) :=
    enter _
  rcases ask_cases s id ref answers meanwhile with ⟨-, hnone⟩ | ⟨k, -, -, -, -, hsome⟩
  · rw [hnone]
    refine goOn (henter.trans ?_)
    exact calm rfl rfl rfl
  · rw [hsome]
    exact henter.trans (calm rfl rfl rfl)

/-- Actions tell, as long as the side lanes that they start do. -/
theorem perform {chance : Chance} {cue : Cue} (hstart : ∀ s l t, start s l = some t → Registers s t)
    (h : s.perform start chance id ref cue = some t) : Registers s t := by
  cases cue with
  | cameraShot name duration =>
    cases h
    exact (calm rfl rfl rfl : Registers s { s with camera := .shooting name duration }).goOn
  | speak actor text minTime words =>
    simp only [Session.perform] at h
    split at h <;> cases h
    · exact calm rfl rfl rfl
    · exact (stage (stage_speak _ _ _)).goOn
  | snippet file topic sideLane =>
    simp only [Session.perform] at h
    split at h
    · cases h
      exact advance id
    · split at h
      · obtain ⟨u, hu, hgoes⟩ := Option.bind_eq_some_iff.mp h
        cases hgoes
        exact (hstart _ _ _ hu).goOn
      · split at h <;> cases h
        · exact refl s
        · exact enter _
  | stopConversation =>
    cases h
    exact (changeLane _).trans (calm rfl rfl rfl)
  | stopTopic =>
    cases h
    exact (changeLane _).goOn
  | setVariable name change =>
    cases h
    exact (stage (stage_setVariable chance name change)).goOn
  | setParameter actor name change =>
    cases h
    exact (stage (stage_setParameter chance actor name change)).goOn
  | actorCommand | gameCommand =>
    cases h
    exact announce _
  | trigger name action =>
    cases h
    exact (stage (stage_world _)).trans (announce _)
  | addActor actor alias? =>
    cases h
    refine Registers.trans ?_ (announce _)
    split
    · exact refl s
    · exact stage (stage_addActor _)
  | removeActor actor =>
    cases h
    exact (removeActor actor).trans (announce _)
  | comment text =>
    cases h
    exact advance id

theorem execute (hstart : ∀ s l t, start s l = some t → Registers s t) (h : s.execute start id ref a = some t) :
    Registers s t := by
  unfold Session.execute at h
  split at h
  · cases h
    refine goOn ?_
    exact calm rfl rfl rfl
  · split at h
    · exact perform hstart h
    · simp only at h
      split at h <;> cases h
      · exact advance id
      · exact enter _
    · cases h
      exact ask _ _
    · cases h
      exact advance id
    · cases h
      exact enter _

/-! ### Passes -/

theorem begun (id : LaneId) : Registers s (s.begun id) := by
  unfold Session.begun
  split
  · exact advance _
  · exact refl s

theorem opened (id : LaneId) : Registers s (s.opened id) := by
  refine (begun id).trans ?_
  unfold Session.opened endBrokenLoop
  split
  · exact refl _
  · exact (changeLane _).trans (record rfl)

theorem finish (hl : s.lane? id = some l) : Registers s (s.finish id) := by
  cases id with
  | main =>
    unfold Session.finish
    simp only
    split
    · exact (calm rfl rfl rfl : Registers s { s with running := false }).trans (record rfl)
    · exact refl s
  | side n => exact removeLane (lane?_side_isSome_iff.mp (Option.isSome_of_eq_some hl))

theorem note (last : Option LastPlayed) : Registers s (s.note id ref a last) :=
  (calm rfl rfl rfl : Registers s { s with lastPlayed := last }).trans (record rfl)

theorem attempt (hstart : ∀ s l t, start s l = some t → Registers s t) (h : s.attempt start id l ref a e = some t) :
    Registers s t := by
  unfold Session.attempt at h
  split at h
  · cases h
    exact refl s
  · simp only at h
    split at h
    · cases h
      exact changeLane _
    · obtain ⟨u, hu, hprimed⟩ := Option.bind_eq_some_iff.mp h
      cases hprimed
      exact (changeLane _).trans ((note (some _)).trans ((execute hstart hu).trans (changeLane _)))

/-- A pass tells, however many passes there are within it. -/
theorem passWithin (fuel : Nat) : ∀ {s t : Session} {id : LaneId} {e : Seconds}, s.passWithin fuel id e = some t →
    Registers s t := by
  induction fuel with
  | zero => nofun
  | succ fuel ih =>
    intro s t id e h
    rw [passWithin_succ] at h
    refine (opened id).trans ?_
    split at h
    · cases h
      exact refl _
    · rename_i l hl
      split at h
      · split at h
        · cases h
          exact refl _
        · exact attempt (fun s l t hstart => (addLane l).trans (ih hstart)) h
      · split at h
        · cases h
          exact refl _
        · split at h <;> cases h
          · exact advance id
          · exact finish hl

theorem pass (h : s.pass id e = some t) : Registers s t := passWithin _ h

theorem update (h : s.update e = some t) : Registers s t := by
  refine update_preserves (P := Registers s) (refl s) (calm rfl rfl rfl) ?_ ?_ h
  · exact fun _ _ _ hr hu => hr.trans (pass hu)
  · exact fun _ _ hu => hu.trans (calm rfl rfl rfl)

theorem skipSpeech {count : Nat} (left taken : Nat) (h : s.skipSpeech left taken = some (t, count)) : Registers s t :=
  skipSpeech_preserves (P := Registers s) (fun _ _ hr hu => hr.trans (update hu)) (refl s) h

/-! ### Operations -/

theorem rewind (s : Session) : Registers s s.rewind := by
  obtain ⟨r, hr, hnext⟩ : ∃ r : Session, s.rewind = r.advance .main ∧ r.nextSide = s.nextSide := ⟨_, rfl, rfl⟩
  have hnumbers : s.rewind.numbers = [] := by rw [numbers, (begins_rewind s).1.sides, List.map_nil]
  have hnext' : s.rewind.nextSide = s.nextSide := by
    have hgoes : Touches .main r (r.advance .main) := .advance
    rw [hr, hgoes.nextSide, hnext]
  refine ⟨[.rewound], events_rewind, ?_⟩
  rw [Roster.read_singleton, Roster.note, roster, roster, hnumbers, hnext']

theorem unwind {depth : Nat} (h : s.unwind id depth = some t) : Registers s t := by
  obtain ⟨-, -, -, rfl⟩ := eq_of_unwind h
  exact (changeLane _).trans (record rfl)

theorem answer (k : Choice) (o : Offer) : Registers s (s.answer k o) := by
  obtain ⟨q, hq, hanswer⟩ := answer_cases k o
  have hnoted : Registers s q := (changeLane _).trans ((record rfl).trans (stage hq))
  rcases hanswer with h | ⟨list, -, h⟩
  · rw [h]
    exact hnoted
  · rw [h]
    exact hnoted.trans (enter _)

theorem select (index : Nat) : Registers s (s.select index).1 := by
  have hdone : Registers s { s with choice := none } := calm rfl rfl rfl
  obtain hsame | ⟨k, -, ⟨-, hnone⟩ | ⟨o, u, hunwind, hanswered⟩⟩ := select_cases s index
  · rw [hsame]
    exact refl s
  · rwa [hnone]
  · rw [hanswered]
    exact hdone.trans ((unwind hunwind).trans (answer _ _))

theorem addSide (h : s.addSide l = some t) : Registers s t := (addLane l).trans (pass h)

theorem setTopic (topic : Option TopicId) : Registers s (s.setTopic topic) := by
  unfold Session.setTopic
  split
  · exact refl s
  · have hset : Registers s { s with topic, preview := none } := calm rfl rfl rfl
    exact hset.trans (rewind _)

theorem playSingle {seconds : Seconds} (h : s.playSingle a seconds = some t) : Registers s t := by
  let begun : Session := { { s with preview := some a }.rewind with running := true, paused := false }
  have hpreview : Registers s { s with preview := some a } := calm rfl rfl rfl
  have hruns : Registers { s with preview := some a }.rewind begun := calm rfl rfl rfl
  have hbegun : Registers s begun := (hpreview.trans (rewind _)).trans hruns
  unfold Session.playSingle at h
  simp only at h
  split at h
  · exact hbegun.trans (update h)
  · cases h
    exact hbegun

/-- Every operation tells what it does to the side lanes, apart from the one that takes the log. -/
theorem step {op : Op} {reply : Reply} (hop : op ≠ .takeEvents) (h : s.step op = some (t, reply)) : Registers s t := by
  cases op with
  | takeEvents => exact absurd rfl hop
  | setTopic topic =>
    cases h
    exact setTopic topic
  | setRunning | setPaused | setAutoAdvance | speech | world | takeInfo | addActor =>
    cases h
    exact calm rfl rfl rfl
  | update e =>
    obtain ⟨u, hu, hreply⟩ := Option.bind_eq_some_iff.mp h
    cases hreply
    exact update hu
  | rewind =>
    cases h
    exact rewind s
  | advance =>
    cases h
    exact advance .main
  | fastForward =>
    obtain ⟨⟨u, count⟩, hu, hreply⟩ := Option.bind_eq_some_iff.mp h
    cases hreply
    exact skipSpeech _ _ hu
  | cancelLoop depth =>
    cases h
    unfold Session.cancelLoop
    cases hunwind : s.unwind .main depth with
    | none => exact refl s
    | some u => exact unwind hunwind
  | select index =>
    cases h
    exact select index
  | playSingle action seconds =>
    obtain ⟨u, hu, hreply⟩ := Option.bind_eq_some_iff.mp h
    cases hreply
    exact playSingle hu
  | addSide lane =>
    obtain ⟨u, hu, hreply⟩ := Option.bind_eq_some_iff.mp h
    cases hreply
    exact addSide hu
  | removeActor name =>
    cases h
    exact removeActor name

end Registers

/-! ### The whole log -/

/-- What a host takes of the log. -/
def Request.taken (s : Session) : Request → List Event
  | .op .takeEvents => s.events.toList
  | _ => []

/-- The log since the start, with what the host has taken of it. -/
def wholeLog (past : List (Session × Request)) (s : Session) : List Event :=
  past.flatMap (fun (before, request) => request.taken before) ++ s.events.toList

variable {guests : Session → Lane → Prop} {hosted : List Nat} {past : List (Session × Request)}

theorem wholeLog_concat {request : Request} :
    wholeLog (past ++ [(s, request)]) t =
      past.flatMap (fun (before, request) => request.taken before) ++ request.taken s ++ t.events.toList := by
  simp [wholeLog]

/-- A request tells what it does to the side lanes, also when it takes the log. -/
theorem wholeLog_respond (past : List (Session × Request)) {request : Request} (h : s.respond request = some t) :
    ∃ log, wholeLog (past ++ [(s, request)]) t = wholeLog past s ++ log ∧ s.roster.read log = some t.roster := by
  have htold : request.taken s = [] → Registers s t → ∃ log,
      wholeLog (past ++ [(s, request)]) t = wholeLog past s ++ log ∧ s.roster.read log = some t.roster := by
    rintro htaken ⟨log, hlog, hread⟩
    exact ⟨log, by rw [wholeLog_concat, htaken, hlog, wholeLog, List.append_nil, List.append_assoc], hread⟩
  cases request with
  | edit world =>
    cases h
    exact htold rfl (.calm rfl rfl rfl)
  | op op =>
    obtain ⟨⟨u, reply⟩, hstep, rfl⟩ := Option.map_eq_some_iff.mp h
    by_cases hop : op = .takeEvents
    · subst hop
      cases hstep
      exact ⟨[], by rw [wholeLog_concat]; simp [wholeLog, Request.taken], rfl⟩
    · refine htold ?_ (.step hop hstep)
      cases op <;> first | rfl | exact absurd rfl hop

/-- The whole log tells which side lanes there are. -/
theorem Rests.reads (hs : Rests c guests hosted past s) : Roster.Reads (wholeLog past s) s.roster := by
  have hresponds : ∀ {past : List (Session × Request)} {s t : Session} {request : Request},
      Roster.Reads (wholeLog past s) s.roster → s.respond request = some t →
        Roster.Reads (wholeLog (past ++ [(s, request)]) t) t.roster := by
    intro past s t request hreads h
    obtain ⟨log, hlog, hread⟩ := wholeLog_respond past h
    exact hlog ▸ hreads.read hread
  induction hs with
  | start => exact .nil
  | responds _ _ h ih => exact hresponds ih h
  | @hosts _ _ s t l _ h ih =>
    have hresponse : s.respond (.op (.addSide l)) = some t := by rw [respond, Session.step, h]; rfl
    exact hresponds ih hresponse

/-- The log of a session tells which side lanes there are, whatever the host has wanted, and whatever it has taken of
    the log. Side lanes get the numbers 1, 2, 3 and so on in the order in which they are added, and those that the host
    adds are told to it; no number is given out twice, also after playback has started over. A side lane is there exactly
    if the log tells that it has been added, and neither that it has been removed since nor that playback has started
    over. It is removed no more than once. -/
theorem lanes_logged (hs : Rests c guests hosted past s) :
    (∃ count, s.nextSide = count + 1 ∧ (wholeLog past s).filterMap Event.added? = List.range' 1 count) ∧
    (∀ n, (s.lane? (.side n)).isSome ↔ IsLogged (wholeLog past s) n) ∧
    (∀ n, (wholeLog past s).count (.laneRemoved n) ≤ 1) ∧
    ∀ l t reply, s.step (.addSide l) = some (t, reply) → reply = .lane s.nextSide ∧
      ∃ log, t.events.toList = s.events.toList ++ .laneAdded s.nextSide :: log := by
  have hreads := hs.reads
  refine ⟨hreads.added, fun n => lane?_side_isSome_iff.trans (hreads.alive n), hreads.once, fun l t reply h => ?_⟩
  obtain ⟨u, hu, hreply⟩ := Option.bind_eq_some_iff.mp h
  cases hreply
  obtain ⟨log, hlog, -⟩ := Registers.pass hu
  exact ⟨rfl, log, by rw [hlog]; simp [addLane, record]⟩

end Session

/-- A side lane that starts another one and then asks. -/
def Document.attic : Document where
  profiles := []
  values := .empty
  gameCommands := .empty
  files := [{
    id := "tale"
    topics := [
      { id := "attic"
        block := ⟨[{ kind := .cue (.snippet none "trunk" true) }, { kind := .cue (.comment "dust") }]⟩ },
      { id := "trunk"
        block := ⟨[
          { kind := .cue (.snippet none "moth" true) },
          { kind := .choice [⟨"close", none, ⟨[]⟩⟩] ⟨[{ kind := .cue (.comment "creak") }]⟩ none }]⟩ },
      { id := "moth", block := ⟨[{ kind := .cue (.comment "flutter") }]⟩ }] }]

/-- Five side lanes have been added: two before the host has taken the log, one by the host, which has gone at once, and
    two after playback has started over, one of which has gone. -/
theorem lanes_logged_attic :
    ∃ c past s, Document.attic.load = .ok c ∧ Session.Rests c (fun _ _ => True) [] past s ∧
      (Session.wholeLog past s).filterMap Event.added? = [1, 2, 3, 4, 5] ∧ IsLogged (Session.wholeLog past s) 4 ∧
      ¬IsLogged (Session.wholeLog past s) 1 ∧ ¬IsLogged (Session.wholeLog past s) 5 ∧
      ∀ n, (Session.wholeLog past s).count (.laneRemoved n) ≤ 1 := by
  have hplayed : ∃ c, Document.attic.load = .ok c ∧
      ((Session.start c (.scripted .zeros) {}).steps
        [.setTopic (some ⟨0⟩), .setRunning true, .update 1, .update 1, .takeEvents]).any fun q =>
          (q.respond (.op (.addSide {}))).any fun r => (r.steps [.rewind, .update 1, .update 1]).any fun s =>
            decide (s.nextSide = 6) && decide (s.numbers = [4]) :=
    ⟨_, rfl, by decide +kernel⟩
  obtain ⟨c, hc, hplayed⟩ := hplayed
  simp only [Option.any_eq_true, Bool.and_eq_true, decide_eq_true_eq] at hplayed
  obtain ⟨q, hq, r, hr, s, hs, hnext, hnumbers⟩ := hplayed
  have hstart : Session.Rests c (fun _ _ => True) [] [] (.start c (.scripted .zeros) {}) := .start _ _
  obtain ⟨before, hbefore⟩ := hstart.steps (by simp) hq
  obtain ⟨past, hpast⟩ := (hbefore.responds (fun _ _ => trivial) hr).steps (by simp) hs
  obtain ⟨⟨count, hcount, hadded⟩, halive, honce, -⟩ := Session.lanes_logged hpast
  obtain rfl : count = 5 := by omega
  have hthere : ∀ n, IsLogged (Session.wholeLog past s) n ↔ n ∈ [4] := fun n => by
    rw [← halive, Session.lane?_side_isSome_iff, hnumbers]
  refine ⟨c, past, s, hc, hpast, hadded, ?_, ?_, ?_, honce⟩ <;> simp [hthere]

end Dialogue
