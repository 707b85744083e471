import Dialogue.Proofs.Lanes
import Dialogue.Playback.Operation

/-! What the small steps on a session change of its lanes and its log. A change is told by the one lane that it is
    about, with the cursors that the lane has then, and by the events that are logged (`Effect`). -/

namespace Dialogue

/-- Whether the interpreter does what actions say. -/
def Interpreter.isScripted : Interpreter → Bool
  | .scripted _ => true
  | .recording _ => false

theorem Interpreter.isScripted_iff {interpreter : Interpreter} :
    interpreter.isScripted ↔ ∃ chance, interpreter = .scripted chance := by
  cases interpreter <;> simp [isScripted]

namespace Session
variable {s t u : Session} {id other : LaneId} {l : Lane}

/-! ### Looking up lanes -/

theorem lookup_map_self {α : Type} (n : Nat) (f : α → α) :
    ∀ l : List (Nat × α), (l.map fun (m, x) => if m = n then (m, f x) else (m, x)).lookup n = (l.lookup n).map f
  | [] => rfl
  | (m, x) :: l => by
    by_cases h : m = n
    · subst h
      simp
    · have hne : (n == m) = false := beq_eq_false_iff_ne.mpr (Ne.symm h)
      simp only [List.map_cons, h, ↓reduceIte, List.lookup_cons, hne, lookup_map_self n f l]

theorem lookup_map_of_ne {α : Type} {k n : Nat} (f : α → α) (hkn : k ≠ n) :
    ∀ l : List (Nat × α), (l.map fun (m, x) => if m = n then (m, f x) else (m, x)).lookup k = l.lookup k
  | [] => rfl
  | (m, x) :: l => by
    have ih := lookup_map_of_ne f hkn l
    by_cases h : m = n
    · subst h
      have hne : (k == m) = false := beq_eq_false_iff_ne.mpr hkn
      simp only [List.map_cons, ↓reduceIte, List.lookup_cons, hne, ih]
    · simp only [List.map_cons, h, ↓reduceIte, List.lookup_cons, ih]

theorem lookup_filter_self {α : Type} (n : Nat) :
    ∀ l : List (Nat × α), (l.filter fun (m, _) => m ≠ n).lookup n = none
  | [] => rfl
  | (m, x) :: l => by
    have ih := lookup_filter_self n l
    by_cases h : m = n
    · simpa [List.filter_cons, h] using ih
    · have hne : (n == m) = false := beq_eq_false_iff_ne.mpr (Ne.symm h)
      simpa [List.filter_cons, h, List.lookup_cons, hne] using ih

theorem lookup_filter_of_ne {α : Type} {k n : Nat} (hkn : k ≠ n) :
    ∀ l : List (Nat × α), (l.filter fun (m, _) => m ≠ n).lookup k = l.lookup k
  | [] => rfl
  | (m, x) :: l => by
    have ih := lookup_filter_of_ne hkn l
    by_cases h : m = n
    · subst h
      have hne : (k == m) = false := beq_eq_false_iff_ne.mpr hkn
      simpa [List.filter_cons, List.lookup_cons, hne] using ih
    · cases hkm : k == m with
      | true => simp [h, List.lookup_cons, hkm]
      | false => simpa [List.filter_cons, h, List.lookup_cons, hkm] using ih

theorem lane?_changeLane_self {f : Lane → Lane} : (s.changeLane id f).lane? id = (s.lane? id).map f := by
  cases id with
  | main => rfl
  | side n => exact lookup_map_self n f s.sides

theorem lane?_changeLane_of_ne {f : Lane → Lane} (h : other ≠ id) :
    (s.changeLane id f).lane? other = s.lane? other := by
  cases id with
  | main =>
    cases other with
    | main => exact absurd rfl h
    | side m => rfl
  | side n =>
    cases other with
    | main => rfl
    | side m =>
      have hne : m ≠ n := fun heq => h (heq ▸ rfl)
      exact lookup_map_of_ne f hne s.sides

/-- The lists that a lane is in. -/
def cursors? (s : Session) (id : LaneId) : Option (List Cursor) := (s.lane? id).map (·.cursors)

theorem cursors?_eq_some {cursors : List Cursor} (h : s.cursors? id = some cursors) :
    ∃ l, s.lane? id = some l ∧ l.cursors = cursors := Option.map_eq_some_iff.mp h

/-! ### Numbers of side lanes -/

/-- Whether a lane may be there, as its number has been given out. -/
def Knows (s : Session) : LaneId → Prop
  | .main => True
  | .side n => n < s.nextSide

theorem Knows.later (h : s.Knows other) (hle : s.nextSide ≤ t.nextSide) : t.Knows other := by
  cases other with
  | main => trivial
  | side n => exact Nat.lt_of_lt_of_le h hle

/-- Side lanes have numbers that have been given out. -/
def Numbered (s : Session) : Prop := ∀ n l, (n, l) ∈ s.sides → n < s.nextSide

theorem Numbered.lookup_nextSide (h : s.Numbered) : s.sides.lookup s.nextSide = none := by
  rw [List.lookup_eq_none_iff]
  intro entry hmem
  have hlt := h entry.1 entry.2 hmem
  simp only [bne_iff_ne, ne_eq]
  omega

/-! ### Changes -/

/-- A lane that is not empty goes on in its innermost list, or after the action that has entered the list. -/
theorem advance_of_ne_nil (hscript : s.hasScript) (hl : s.lane? id = some l) (hne : l.cursors ≠ []) :
    s.advance id =
      if l.advance.2 then (s.changeLane id fun _ => l.advance.1).record (.left id)
      else s.changeLane id fun _ => l.advance.1 := by
  have hsome : l.cursors.isEmpty = false := by simpa using hne
  rw [Session.advance, hscript]
  simp only [↓reduceIte, hl, hsome, Bool.false_eq_true]

/-- What is played, and how, is the same. -/
structure SameScript (s t : Session) : Prop where
  conversation : t.conversation = s.conversation
  topic : t.topic = s.topic
  preview : t.preview = s.preview
  options : t.options = s.options
  scripted : (∃ chance, s.interpreter = .scripted chance) → ∃ chance, t.interpreter = .scripted chance

namespace SameScript

theorem refl (s : Session) : SameScript s s := ⟨rfl, rfl, rfl, rfl, id⟩

theorem trans (h : SameScript s t) (h' : SameScript t u) : SameScript s u :=
  ⟨h'.conversation.trans h.conversation, h'.topic.trans h.topic, h'.preview.trans h.preview,
    h'.options.trans h.options, h'.scripted ∘ h.scripted⟩

theorem action? (h : SameScript s t) : t.action? = s.action? := by
  funext ref
  obtain ⟨list, i⟩ := ref
  cases list <;> simp [Session.action?, Session.list, h.conversation, h.preview]

theorem hasScript (h : SameScript s t) : t.hasScript = s.hasScript := by
  rw [Session.hasScript, Session.hasScript, h.topic, h.preview]

end SameScript

/-- The cursors of the lane `id` are `now`, and `log` has been logged. No other lane has changed, and what is played is
    the same. -/
structure Effect (id : LaneId) (now : Option (List Cursor)) (log : List Event) (s t : Session) : Prop where
  script : SameScript s t
  lane : t.cursors? id = now
  others : ∀ other, other ≠ id → t.cursors? other = s.cursors? other
  log : t.events.toList = s.events.toList ++ log
  nextSide : s.nextSide ≤ t.nextSide
  numbered : s.Numbered → t.Numbered

namespace Effect
variable {now then' : Option (List Cursor)} {es es' : List Event}

theorem trans (h : Effect id now es s t) (h' : Effect id then' es' t u) : Effect id then' (es ++ es') s u where
  script := h.script.trans h'.script
  lane := h'.lane
  others other hne := (h'.others other hne).trans (h.others other hne)
  log := by rw [h'.log, h.log, List.append_assoc]
  nextSide := Nat.le_trans h.nextSide h'.nextSide
  numbered := h'.numbered ∘ h.numbered

theorem calm (id : LaneId) (hscript : SameScript s t) (hmain : t.main = s.main) (hsides : t.sides = s.sides)
    (hevents : t.events = s.events) (hnext : t.nextSide = s.nextSide) : Effect id (s.cursors? id) [] s t := by
  have hlane : ∀ other, t.cursors? other = s.cursors? other := by
    intro other
    cases other <;> simp [cursors?, lane?, hmain, hsides]
  refine ⟨hscript, hlane id, fun other _ => hlane other, by rw [hevents, List.append_nil], Nat.le_of_eq hnext.symm, ?_⟩
  unfold Numbered
  rw [hsides, hnext]
  exact fun h => h

theorem record (id : LaneId) (e : Event) : Effect id (s.cursors? id) [e] s (s.record e) :=
  ⟨⟨rfl, rfl, rfl, rfl, fun h => h⟩, rfl, fun _ _ => rfl, by simp [Session.record], Nat.le_refl _, fun h => h⟩

theorem map (f : Lane → Lane) :
    Effect id ((s.lane? id).map fun l => (f l).cursors) [] s (s.changeLane id f) := by
  have hscript : SameScript s (s.changeLane id f) := by cases id <;> exact ⟨rfl, rfl, rfl, rfl, fun h => h⟩
  refine ⟨hscript, ?_, fun other hne => ?_, ?_, ?_, ?_⟩
  · rw [cursors?, lane?_changeLane_self, Option.map_map]
    rfl
  · rw [cursors?, cursors?, lane?_changeLane_of_ne hne]
  · cases id <;> simp [Session.changeLane]
  · cases id <;> exact Nat.le_refl _
  · intro hnum
    cases id with
    | main => exact hnum
    | side n =>
      intro m l hmem
      obtain ⟨⟨m', l'⟩, hmem', heq⟩ := List.mem_map.mp hmem
      have hsame : m' = m := by
        by_cases hn : m' = n <;> simp only [hn, ↓reduceIte, Prod.mk.injEq] at heq ⊢ <;> exact heq.1
      exact hsame ▸ hnum m' l' hmem'

theorem changeLane (h : s.lane? id = some l) (f : Lane → Lane) :
    Effect id (some (f l).cursors) [] s (s.changeLane id f) := by
  have hmap : Effect id ((s.lane? id).map fun l => (f l).cursors) [] s (s.changeLane id f) := map f
  rwa [h] at hmap

theorem clock {f : Lane → Lane} (hf : ∀ l, (f l).cursors = l.cursors) :
    Effect id (s.cursors? id) [] s (s.changeLane id f) := by
  have hsame : (s.lane? id).map (fun l => (f l).cursors) = s.cursors? id := by simp only [cursors?, hf]
  exact hsame ▸ map f

theorem enter {cursors : List Cursor} (h : s.cursors? id = some cursors) (cur : Cursor) :
    Effect id (some (cursors ++ [cur])) [.entered id cur.list] s (s.enter id cur) := by
  obtain ⟨l, hl, rfl⟩ := cursors?_eq_some h
  exact (record id _).trans (changeLane (s := s.record (.entered id cur.list)) (by cases id <;> exact hl)
    fun l => l.prime.push cur)

theorem advance {cursors : List Cursor} (hscript : s.hasScript) (h : s.cursors? id = some cursors)
    (hne : cursors ≠ []) :
    Effect id (some (Lane.mk cursors true 0).advance.1.cursors)
      (if (Lane.mk cursors true 0).advance.2 then [.left id] else []) s (s.advance id) := by
  obtain ⟨l, hl, rfl⟩ := cursors?_eq_some h
  have heffect : Effect id (some l.advance.1.cursors) [] s (s.changeLane id fun _ => l.advance.1) :=
    changeLane hl fun _ => l.advance.1
  have hclock : l.advance.1.cursors = (Lane.mk l.cursors true 0).advance.1.cursors ∧
      l.advance.2 = (Lane.mk l.cursors true 0).advance.2 := Lane.advance_clock
  rw [advance_of_ne_nil hscript hl hne, ← hclock.1, ← hclock.2]
  split
  · have hrecord := record (s := s.changeLane id fun _ => l.advance.1) id (.left id)
    rw [heffect.lane] at hrecord
    exact heffect.trans hrecord
  · exact heffect

theorem addLane (hnum : s.Numbered) (l : Lane) :
    Effect (.side s.nextSide) (some l.cursors) [.laneAdded s.nextSide] s (s.addLane l) := by
  refine ⟨⟨rfl, rfl, rfl, rfl, fun h => h⟩, ?_, fun other hne => ?_, by simp [Session.addLane, Session.record],
    Nat.le_succ _, fun _ m l' hmem => ?_⟩
  · simp [cursors?, lane?, Session.addLane, Session.record, List.lookup_append, hnum.lookup_nextSide]
  · cases other with
    | main => rfl
    | side m =>
      have hm : (m == s.nextSide) = false := beq_eq_false_iff_ne.mpr fun heq => hne (heq ▸ rfl)
      simp [cursors?, lane?, Session.addLane, Session.record, List.lookup_append, List.lookup_cons, hm]
  · rcases List.mem_append.mp hmem with hold | hnew
    · exact Nat.lt_succ_of_lt (hnum m l' hold)
    · cases List.mem_singleton.mp hnew
      exact Nat.lt_succ_self _

theorem removeLane (n : Nat) : Effect (.side n) none [.laneRemoved n] s (s.removeLane n) := by
  refine ⟨⟨rfl, rfl, rfl, rfl, fun h => h⟩, ?_, fun other hne => ?_, by simp [Session.removeLane, Session.record],
    Nat.le_refl _, fun hnum m l hmem => hnum m l (List.mem_filter.mp hmem).1⟩
  · exact congrArg (Option.map _) (lookup_filter_self n s.sides)
  · cases other with
    | main => rfl
    | side m =>
      have hne' : m ≠ n := fun heq => hne (heq ▸ rfl)
      exact congrArg (Option.map _) (lookup_filter_of_ne hne' s.sides)

end Effect

end Session
end Dialogue
