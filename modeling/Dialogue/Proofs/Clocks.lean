import Dialogue.Proofs.Roots
import Dialogue.Proofs.Schedule

/-! The clocks of lanes. A pass either makes its lane ready for another action, which waits from then on, or leaves it as
    it is, or lets time pass for an action whose gate is open (`Ticks`). A lane has such passes while the host's requests
    are dealt with (`Due`), and nothing else changes its clock unless it is made ready for another action
    (`respond_becomes`). -/

namespace Dialogue

namespace Lane

/-- The next action waits for actors, and no time has passed since. -/
structure IsPrimed (l : Lane) : Prop where
  waiting : l.waiting = true
  time : l.time = 0

theorem isPrimed_prime (l : Lane) : l.prime.IsPrimed := ⟨rfl, rfl⟩

/-- The clock of a lane is as it was, and its next action, unless it has come to its end. -/
structure Keeps (l l' : Lane) : Prop where
  waiting : l'.waiting = l.waiting
  time : l'.time = l.time
  next : l' = l ∨ l'.action? = none

theorem Keeps.refl (l : Lane) : l.Keeps l := ⟨rfl, rfl, .inl rfl⟩

theorem Keeps.eq {l l' : Lane} (h : l.Keeps l') (hnext : l'.action?.isSome) : l' = l := by
  rcases h.next with hsame | hend
  · exact hsame
  · rw [hend] at hnext
    cases hnext

/-- A lane that goes on is ready for another action, or it is at the end of its outermost list. -/
theorem advance_rearms (l : Lane) : l.advance.1.IsPrimed ∨ l.depth ≤ 1 ∧ l.Keeps l.advance.1 := by
  unfold advance
  simp only
  split
  · exact .inl (isPrimed_prime _)
  · rename_i hend
    split
    · exact .inl (isPrimed_prime _)
    · rename_i hflat
      have hdepth : (l.changeTop Cursor.advance).depth = l.depth := by simp [changeTop, changeAt, depth]
      refine .inr ⟨hdepth ▸ Nat.le_of_not_lt hflat, rfl, rfl, .inr ?_⟩
      exact Option.not_isSome_iff_eq_none.mp hend

end Lane

namespace Session
variable {c : Conversation} {hosted : List Nat} {past : List (Session × Request)} {r s t u : Session} {id other : LaneId}
variable {l l' : Lane} {e : Seconds} {ref : ActionRef} {a : Action ListId} {topic : TopicId} {request : Request}

theorem isPrimed_topicLane (parent : Option ActionRef) : (s.topicLane topic parent).IsPrimed := ⟨rfl, rfl⟩

/-! ### Gates -/

/-- The gate of an action is open: it waits for nobody, or for an actor who is not there or not busy, or for all
    actors, none of whom is busy. -/
def Admits (s : Session) (a : Action ListId) : Prop :=
  a.waits = false ∨
    match a.waitTarget.filter (· ≠ "") with
    | some name => ∀ i, s.world.actorIndex? name = some i → s.isBusy a.speechOnly i = false
    | none => ∀ i < s.slots.length, s.isBusy a.speechOnly i = false

theorem admits_iff : s.Admits a ↔ s.mustWait a = false := by
  unfold Admits mustWait
  cases a.waits with
  | false => simp
  | true =>
    cases a.waitTarget.filter (· ≠ "") with
    | none => simp
    | some name => cases hi : s.world.actorIndex? name <;> simp [hi]

theorem Alike.admits (h : Alike s t) : t.Admits a ↔ s.Admits a := by rw [admits_iff, admits_iff, h.mustWait]

/-! ### Passes -/

/-- What a pass after some time makes of its lane. -/
inductive Ticks (r : Session) (e : Seconds) (l l' : Lane) : Prop where
  /-- The lane is ready for another action. -/
  | primed (h : l'.IsPrimed)
  | same (h : l' = l) (hstill : l.action?.isSome → l.waiting = true)
  /-- The gate of the next action is open, or has been before, but its time has not come. -/
  | timed {ref : ActionRef} {a : Action ListId} (hnext : l.action? = some ref) (ha : r.action? ref = some a)
      (hgate : l.waiting = true → r.Admits a) (h : l' = { l with waiting := false, time := l.time + e })

/-- When a pass looks for the next action of its lane, the lane is as it was, or it is at the end of a list. -/
theorem opened_lane (hrooted : s.Rooted) (hguarded : l.Guarded) (hl : s.lane? id = some l) :
    ∃ k, (s.opened id).lane? id = some k ∧ (k = l ∨ k.IsPrimed ∧ k.action? = none) := by
  by_cases hempty : id = .main ∧ s.main.cursors.isEmpty
  · obtain ⟨rfl, hnil⟩ := hempty
    rw [List.isEmpty_iff] at hnil
    have hroot : s.root? = none := by
      rw [← Option.not_isSome_iff_eq_none, ← hrooted.ne_nil_iff]
      exact fun hne => hne hnil
    have hbegun : s.begun .main = s.advance .main := if_pos ⟨rfl, List.isEmpty_iff.mpr hnil⟩
    obtain rfl : s.main = l := Option.some.inj hl
    obtain ⟨k, hk, hkept, hcursors⟩ : ∃ k, (s.advance .main).lane? .main = some k ∧ (k = s.main ∨ k.IsPrimed) ∧
        k.cursors = [] := by
      by_cases hscript : s.hasScript
      · have hrooting : s.advance .main = s.changeLane .main fun l => { l with cursors := [] }.prime := by
          simp only [advance, hscript, ↓reduceIte, hl, hnil, List.isEmpty_nil, hroot, Option.toList_none]
        exact ⟨{ s.main with cursors := [] }.prime, hrooting ▸ rfl, .inr ⟨rfl, rfl⟩, rfl⟩
      · have hstop : s.advance .main = { s with running := false } := by simp [advance, hscript]
        exact ⟨s.main, hstop ▸ rfl, .inl rfl, hnil⟩
    have hopened : s.opened .main = s.advance .main := by
      rw [opened, hbegun, endBrokenLoop_of_none hk (by rw [hcursors]; rfl)]
    refine ⟨k, hopened ▸ hk, hkept.imp_right fun hprimed => ⟨hprimed, ?_⟩⟩
    rw [Lane.action?, Lane.top?, hcursors]
    rfl
  · have hopened : s.opened id = s.endBrokenLoop id := by rw [opened, begun, if_neg hempty]
    cases hd : l.cursors.findIdx? s.isBroken with
    | none => exact ⟨l, by rw [hopened, endBrokenLoop_of_none hl hd, hl], .inl rfl⟩
    | some d =>
      obtain ⟨outer, below, broken, inner, wait, hcursors, rfl, -, -⟩ := exists_wait hguarded hd
      obtain ⟨-, hlane⟩ := endBrokenLoop_of_some hl hcursors hd
      exact ⟨_, hopened ▸ hlane, .inr ⟨⟨rfl, rfl⟩,
        Lane.action?_concat.trans Cursor.action?_forwardEnd⟩⟩

theorem isPrimed_of_changeLane (h : (s.changeLane id Lane.prime).lane? id = some l) : l.IsPrimed := by
  rw [lane?_changeLane_self] at h
  obtain ⟨k, -, rfl⟩ := Option.map_eq_some_iff.mp h
  exact k.isPrimed_prime

theorem opened_alike (s : Session) (id : LaneId) : Alike s (s.opened id) := Alike.opened

theorem action?_opened : (s.opened id).action? = s.action? := (opened_touches s id).lists.action?

/-- The lane of an action that is carried out is as it was before the pass. -/
theorem Carries.lane_eq (h : s.Carries id e l' ref a) (hrooted : s.Rooted) (hguarded : l.Guarded)
    (hl : s.lane? id = some l) : l' = l := by
  obtain ⟨k, hk, hkept | ⟨-, hend⟩⟩ := opened_lane hrooted hguarded hl
  · exact (Option.some.inj (hk.symm.trans h.lane)).symm.trans hkept
  · obtain rfl := Option.some.inj (hk.symm.trans h.lane)
    cases hend.symm.trans h.next

theorem isPrimed_advance (hl : s.lane? id = some l) (hdeep : 1 < l.depth) (hl' : (s.advance id).lane? id = some l') :
    l' = l ∨ l'.IsPrimed := by
  have hfull : l.cursors.isEmpty = false := by
    cases hcursors : l.cursors with
    | nil => simp [Lane.depth, hcursors] at hdeep
    | cons => rfl
  have hgone : l.advance.1.IsPrimed := l.advance_rearms.resolve_right fun hflat => Nat.not_lt.mpr hflat.1 hdeep
  unfold advance at hl'
  split at hl'
  · simp only [hl, hfull, Bool.false_eq_true, ↓reduceIte] at hl'
    have hlane : (s.changeLane id fun _ => l.advance.1).lane? id = some l.advance.1 := by
      rw [lane?_changeLane_self, hl, Option.map_some]
    refine .inr ?_
    split at hl'
    · have hsame : ((s.changeLane id fun _ => l.advance.1).record (.left id)).lane? id = some l.advance.1 :=
        lane?_record_changeLane hl _ _
      exact Option.some.inj (hsame.symm.trans hl') ▸ hgone
    · exact Option.some.inj (hlane.symm.trans hl') ▸ hgone
  · have hsame : ({ s with running := false } : Session).lane? id = s.lane? id := by cases id <;> rfl
    exact .inl (Option.some.inj ((hsame.trans hl).symm.trans hl')).symm

theorem lane?_finish_side (n : Nat) : (s.finish (.side n)).lane? (.side n) = none := lane?_removeLane n

theorem finish_main_lane : (s.finish .main).lane? .main = s.lane? .main := by
  unfold finish
  simp only
  split <;> rfl

/-- A pass that carries out nothing lets time pass at most. -/
theorem Idles.ticks (h : s.Idles id e t) (hs : Arises c hosted s) (hid : ∀ n ∈ hosted, id ≠ .side n)
    (hl : s.lane? id = some l) (hl' : t.lane? id = some l') : s.Ticks e l l' := by
  have hguarded := (hs.regular.grown id l hid hl).guarded
  obtain ⟨k, hk, hkept⟩ := opened_lane hs.rooted hguarded hl
  have hleft : k.action? = none → l' = k ∨ l'.IsPrimed → s.Ticks e l l' := by
    rintro hend (rfl | hprimed)
    · rcases hkept with rfl | ⟨hprimed, -⟩
      · exact .same rfl fun hsome => by simp [hend] at hsome
      · exact .primed hprimed
    · exact .primed hprimed
  cases h with
  | still h =>
    obtain rfl := Option.some.inj (hk.symm.trans hl')
    rcases h k hk with ⟨ref, hnext, hwaits⟩ | ⟨hend, -⟩
    · rcases hkept with rfl | ⟨hprimed, -⟩
      · obtain ⟨a, ha⟩ := Option.isSome_iff_exists.mp (hs.finds hid hk hnext)
        exact .same rfl fun _ => hwaits a ha
      · exact .primed hprimed
    · exact hleft hend (.inl rfl)
  | timed hlane hnext ha hgate _ =>
    obtain rfl := Option.some.inj (hk.symm.trans hlane)
    rw [lane?_changeLane_self, hlane] at hl'
    obtain rfl := Option.some.inj hl'
    rcases hkept with rfl | ⟨-, hend⟩
    · refine .timed hnext (action?_opened ▸ ha) (fun hwaiting => ?_) rfl
      rw [hwaiting, Bool.true_and] at hgate
      exact (opened_alike s id).admits.mp (admits_iff.mpr hgate)
    · cases hend.symm.trans hnext
  | leaves hlane hend hdeep =>
    obtain rfl := Option.some.inj (hk.symm.trans hlane)
    exact hleft hend (isPrimed_advance hlane hdeep hl')
  | finishes hlane hend =>
    obtain rfl := Option.some.inj (hk.symm.trans hlane)
    refine hleft hend (.inl ?_)
    cases id with
    | main => exact (Option.some.inj (hlane.symm.trans (finish_main_lane ▸ hl'))).symm
    | side n =>
      rw [lane?_finish_side] at hl'
      cases hl'

/-- What a pass makes of its own lane. -/
theorem Chain.ticks {visits : List (LaneId × Seconds)} (h : Chain s id e visits t) (hs : Arises c hosted s)
    (hid : ∀ n ∈ hosted, id ≠ .side n) (hl : s.lane? id = some l) (hl' : t.lane? id = some l') : s.Ticks e l l' := by
  cases h with
  | alone hquiet h =>
    cases pass_alone hquiet h with
    | acts => exact .primed (isPrimed_of_changeLane hl')
    | idles hidles => exact hidles.ticks hs hid hl hl'
  | starts => exact .primed (isPrimed_of_changeLane hl')

/-! ### Passes that a request brings about -/

/-- While a request is dealt with, the lane `id` is about to have a pass after some time. -/
inductive Due (s : Session) (request : Request) : Session → LaneId → Seconds → Prop where
  /-- In a frame, the lanes before it have had theirs. -/
  | frame {e : Seconds} {r : Session} {before after : List LaneId} {id : LaneId} (hrequest : request = .op (.update e))
      (hplays : s.Plays) (horder : s.order = before ++ id :: after)
      (h : before.foldlM (fun r id => r.pass id e) (s.aged e) = some r) : Due s request r id e
  /-- The host has added the lane. -/
  | added {l : Lane} (hlane : request.lane? = some l) : Due s request (s.addLane l) (.side s.nextSide) 0
  /-- An action has added the lane. -/
  | started {r : Session} {id : LaneId} {e : Seconds} {l : Lane} {ref : ActionRef} {a : Action ListId} {topic : TopicId}
      (hdue : Due s request r id e) (h : r.Carries id e l ref a) (htopic : r.sideTopic? a = some topic) :
      Due s request (r.started id e l ref a topic) (.side r.nextSide) 0

/-- The time that a request lets pass on the lanes that are there. -/
def elapsed? (s : Session) : Request → Option Seconds
  | .op (.update e) => if s.Plays then some e else none
  | _ => none

/-- Of the lanes that the host has built itself, also for the request, the lane is none. -/
structure Spared (hosted : List Nat) (s : Session) (request : Request) (id : LaneId) : Prop where
  before : ∀ n ∈ hosted, id ≠ .side n
  now : ∀ l, request.lane? = some l → s.IsTopicLane l ∨ id ≠ .side s.nextSide

theorem Arises.foldlM {ids : List LaneId} (hs : Arises c hosted s)
    (h : ids.foldlM (fun r id => r.pass id e) s = some t) : Arises c hosted t ∧ s.nextSide ≤ t.nextSide := by
  refine foldlM_preserves (P := fun t => Arises c hosted t ∧ s.nextSide ≤ t.nextSide) ?_ ⟨hs, Nat.le_refl _⟩ h
  rintro id - r u ⟨hr, hle⟩ hu
  obtain ⟨acting, hconfined⟩ := pass_confined hr.regular.numbered hu
  exact ⟨.pass hr hu, Nat.le_trans hle hconfined.nextSide⟩

theorem lane?_of_foldlM {ids : List LaneId} (hs : s.Numbered) (hknows : s.Knows id) (hid : id ∉ ids)
    (h : ids.foldlM (fun r id => r.pass id e) s = some t) : t.lane? id = s.lane? id := by
  refine (foldlM_preserves (P := fun t => t.Numbered ∧ t.Knows id ∧ t.lane? id = s.lane? id) ?_ ⟨hs, hknows, rfl⟩ h).2.2
  rintro other hother r u ⟨hr, hknows, hlane⟩ hu
  obtain ⟨acting, hconfined⟩ := pass_confined hr hu
  have hne : id ≠ other := fun heq => hid (heq ▸ hother)
  exact ⟨hconfined.numbered hr, hknows.later hconfined.nextSide, (hconfined.others id hne hknows).trans hlane⟩

theorem lane?_aged (id : LaneId) : (s.aged e).lane? id = s.lane? id := by cases id <;> rfl

theorem lane?_eq_none {n : Nat} (hs : s.Numbered) (hn : s.nextSide ≤ n) : s.lane? (.side n) = none := by
  refine Option.eq_none_iff_forall_ne_some.mpr fun l hl => ?_
  exact Nat.not_lt.mpr hn (hs.knows hl)

/-- A request lets lanes have passes only in sessions that arise. -/
theorem Due.arises (h : s.Due request r id e) (hs : Arises c hosted s) :
    s.nextSide ≤ r.nextSide ∧ ∃ hosted', Arises c hosted' r ∧
      ∀ n ∈ hosted', n ∈ hosted ∨ n = s.nextSide ∧ ∃ l, request.lane? = some l ∧ ¬s.IsTopicLane l := by
  induction h with
  | @frame e r before after id _ _ _ h =>
    obtain ⟨harises, hle⟩ := (Arises.aged hs e).foldlM h
    exact ⟨hle, hosted, harises, fun n hn => .inl hn⟩
  | @added l hlane =>
    refine ⟨Nat.le_succ _, ?_⟩
    by_cases htopic : s.IsTopicLane l
    · obtain ⟨topic, parent, rfl⟩ := htopic
      exact ⟨hosted, .added hs topic parent, fun n hn => .inl hn⟩
    · refine ⟨s.nextSide :: hosted, .hosted hs l, fun n hn => ?_⟩
      rcases List.mem_cons.mp hn with rfl | hold
      · exact .inr ⟨rfl, l, hlane, htopic⟩
      · exact .inl hold
  | started _ h htopic ih =>
    obtain ⟨hle, hosted', harises, hnew⟩ := ih
    refine ⟨Nat.le_trans hle ?_, hosted', .started harises h htopic, hnew⟩
    exact (nextSide_carried h).symm ▸ Nat.le_succ _

theorem Due.spared (h : s.Due request r other e) (hs : Arises c hosted s) (hspared : Spared hosted s request id) :
    ∃ hosted', Arises c hosted' r ∧ ∀ n ∈ hosted', id ≠ .side n := by
  obtain ⟨-, hosted', harises, hnew⟩ := h.arises hs
  refine ⟨hosted', harises, fun n hn => ?_⟩
  rcases hnew n hn with hold | ⟨rfl, l, hlane, hbuilt⟩
  · exact hspared.before n hold
  · exact (hspared.now l hlane).resolve_left hbuilt

/-- A lane that is about to have a pass is as it was before the request, and the request's time has passed on it, or it is
    new and ready for its first action. -/
theorem Due.lane (h : s.Due request r id e) (hs : Arises c hosted s) (hspared : Spared hosted s request id) :
    ∃ l, r.lane? id = some l ∧
      (s.lane? id = some l ∧ s.elapsed? request = some e ∨ s.lane? id = none ∧ l.IsPrimed) := by
  have hnum := hs.regular.numbered
  cases h with
  | @frame e r before after id hrequest hplays horder h =>
    obtain ⟨hknows, hthere⟩ := knows_order hnum (horder ▸ by simp : id ∈ s.order)
    obtain ⟨l, hl⟩ := Option.isSome_iff_exists.mp hthere
    have hfirst : id ∉ before := by
      have hnodup := nodup_order hs.regular.ordered
      rw [horder] at hnodup
      exact fun hmem => (List.nodup_append.mp hnodup).2.2 id hmem id List.mem_cons_self rfl
    refine ⟨l, ?_, .inl ⟨hl, ?_⟩⟩
    · rw [lane?_of_foldlM (Arises.aged hs e).regular.numbered hknows hfirst h, lane?_aged, hl]
    · rw [hrequest, elapsed?, if_pos hplays]
  | @added l hlane =>
    obtain ⟨topic, parent, rfl⟩ := (hspared.now l hlane).resolve_right (fun hne => hne rfl)
    exact ⟨_, lane?_addLane hnum, .inr ⟨lane?_eq_none hnum (Nat.le_refl _), isPrimed_topicLane parent⟩⟩
  | started hdue h htopic =>
    obtain ⟨hle, hosted', harises, -⟩ := hdue.arises hs
    obtain ⟨-, hlane⟩ := started_topicLane harises.regular.numbered h _
    exact ⟨_, hlane, .inr ⟨lane?_eq_none hnum hle, isPrimed_topicLane _⟩⟩

/-! ### Lanes after a request -/

/-- What becomes of the clock of a lane while a request is dealt with. -/
inductive Becomes (s : Session) (request : Request) (id : LaneId) (l' : Lane) : Prop where
  | primed (h : l'.IsPrimed)
  /-- No time has passed on the lane, or its next action has to wait. -/
  | keeps {l : Lane} (hl : s.lane? id = some l) (hkeeps : l.Keeps l')
      (hstill : (s.elapsed? request).isSome → l.action?.isSome → l.waiting = true)
  /-- In a pass, the gate of the next action is open, or has been before, but its time has not come. -/
  | timed {r : Session} {e : Seconds} {l : Lane} {ref : ActionRef} {a : Action ListId} (hdue : s.Due request r id e)
      (hl : r.lane? id = some l) (hnext : l.action? = some ref) (ha : r.action? ref = some a)
      (hgate : l.waiting = true → r.Admits a) (h : l' = { l with waiting := false, time := l.time + e })

theorem Ticks.becomes (h : r.Ticks e l l') (hs : Arises c hosted s) (hspared : Spared hosted s request id)
    (hdue : s.Due request r id e) (hl : r.lane? id = some l) : s.Becomes request id l' := by
  cases h with
  | primed h => exact .primed h
  | timed hnext ha hgate h => exact .timed hdue hl hnext ha hgate h
  | same h hstill =>
    subst h
    obtain ⟨k, hk, ⟨hbefore, -⟩ | ⟨-, hprimed⟩⟩ := hdue.lane hs hspared
    · obtain rfl := Option.some.inj (hl.symm.trans hk)
      exact .keeps hbefore (.refl l') fun _ => hstill
    · obtain rfl := Option.some.inj (hl.symm.trans hk)
      exact .primed hprimed

/-- The lane of a pass, and the lanes that are started meanwhile. -/
theorem Chain.becomes {visits : List (LaneId × Seconds)} (h : Chain r id e visits t) (hs : Arises c hosted s)
    (hdue : s.Due request r id e) (hspared : Spared hosted s request other) (hknows : r.Knows id)
    (hother : other = id ∨ ¬r.Knows other) (hl' : t.lane? other = some l') : s.Becomes request other l' := by
  induction h with
  | @alone r t id e hquiet h =>
    obtain ⟨hosted', harises, hfree⟩ := hdue.spared hs hspared
    rcases hother with rfl | hnew
    · obtain ⟨l, hl, -⟩ := hdue.lane hs hspared
      exact ((Chain.alone hquiet h).ticks harises hfree hl hl').becomes hs hspared hdue hl
    · -- A pass that starts no lane adds none.
      obtain ⟨acting, hconfined, -, hnext⟩ := (pass_alone hquiet h).confined harises.regular.numbered
      have hknown : t.Knows other := (hconfined.numbered harises.regular.numbered).knows hl'
      exact absurd (hknown.later (Nat.le_of_eq hnext)) hnew
  | @starts r u id e l ref a topic visits h htopic hrest ih =>
    rcases hother with rfl | hnew
    · exact .primed (isPrimed_of_changeLane hl')
    · have hne : other ≠ id := fun heq => hnew (heq ▸ hknows)
      have hsame : ((u.advance id).changeLane id Lane.prime).lane? other = u.lane? other :=
        (resumed_touches u id).others other hne
      refine ih (.started hdue h htopic) ?_ ?_ (hsame ▸ hl')
      · exact (nextSide_carried h).symm ▸ Nat.lt_succ_self _
      · cases other with
        | main => exact absurd trivial hnew
        | side n =>
          by_cases hn : n = r.nextSide
          · exact .inl (hn ▸ rfl)
          · refine .inr fun hlt => hnew ?_
            have hgiven : (r.started id e l ref a topic).nextSide = r.nextSide + 1 := congrArg (· + 1) (nextSide_carried h)
            rw [Knows, hgiven] at hlt
            exact Nat.lt_of_le_of_ne (Nat.le_of_lt_succ hlt) hn

theorem update_becomes (hs : Arises c hosted s) (hspared : Spared hosted s (.op (.update e)) id)
    (h : s.update e = some t) (hl' : t.lane? id = some l') : s.Becomes (.op (.update e)) id l' := by
  rw [update_eq] at h
  obtain ⟨u, hu, rfl⟩ := Option.map_eq_some_iff.mp h
  have hlane : u.lane? id = some l' := by cases id <;> exact hl'
  split at hu
  · rename_i hplays
    rw [passes_eq] at hu
    -- Whatever lanes have had their passes, the clocks of lanes that have come are as claimed.
    suffices key : ∀ ids before r, s.order = before ++ ids →
        before.foldlM (fun r id => r.pass id e) (s.aged e) = some r →
        (∀ l, r.lane? id = some l → id ∈ ids ∨ s.Becomes (.op (.update e)) id l) →
        ids.foldlM (fun r id => r.pass id e) r = some u → s.Becomes (.op (.update e)) id l' by
      refine key s.order [] (s.aged e) rfl rfl (fun l hl => ?_) hu
      rw [lane?_aged] at hl
      refine .inl ?_
      cases id with
      | main => exact List.mem_append_right _ (List.mem_singleton_self _)
      | side n =>
        exact List.mem_append_left _
          (List.mem_map_of_mem (lane?_side_isSome_iff.mp (Option.isSome_of_eq_some hl)))
    intro ids
    induction ids with
    | nil =>
      intro before r _ _ hkept hrest
      obtain rfl : r = u := Option.some.inj hrest
      exact (hkept l' hlane).resolve_left List.not_mem_nil
    | cons first ids ih =>
      intro before r horder hbefore hkept hrest
      obtain ⟨v, hv, hrest⟩ := Option.bind_eq_some_iff.mp hrest
      obtain ⟨hr, hle⟩ := (Arises.aged hs e).foldlM hbefore
      have hdue : s.Due (.op (.update e)) r first e := .frame rfl hplays horder hbefore
      have hfirst : r.Knows first := by
        refine (knows_order hs.regular.numbered ?_).1.later hle
        rw [horder]
        exact List.mem_append_right _ List.mem_cons_self
      refine ih (before ++ [first]) v (by simpa using horder) (by simp [hbefore, hv]) (fun l hl => ?_) hrest
      by_cases hother : id = first ∨ ¬r.Knows id
      · obtain ⟨visits, hchain⟩ := Chain.of_passWithin hv
        exact .inr (hchain.becomes hs hdue hspared hfirst hother hl)
      · rw [not_or, not_not] at hother
        obtain ⟨acting, hconfined⟩ := pass_confined hr.regular.numbered hv
        rw [hconfined.others id hother.1 hother.2] at hl
        exact (hkept l hl).imp_left fun hmem => (List.mem_cons.mp hmem).resolve_left hother.1
  · rename_i hstill
    cases hu
    refine .keeps hlane (.refl l') fun hsome => ?_
    rw [elapsed?, if_neg hstill] at hsome
    cases hsome

theorem addSide_becomes {l₀ : Lane} (hs : Arises c hosted s) (hlane : request.lane? = some l₀)
    (helapsed : s.elapsed? request = none) (hspared : Spared hosted s request id) (h : s.addSide l₀ = some t)
    (hl' : t.lane? id = some l') : s.Becomes request id l' := by
  have hnum := hs.regular.numbered
  obtain ⟨hnum', acting, hconfined⟩ := addSide_confined hnum h
  by_cases hother : id = .side s.nextSide ∨ ¬(s.addLane l₀).Knows id
  · obtain ⟨visits, hchain⟩ := Chain.of_passWithin h
    exact hchain.becomes hs (.added hlane) hspared (Nat.lt_succ_self _) hother hl'
  · rw [not_or, not_not] at hother
    rw [hconfined.others id hother.1 hother.2, lane?_addLane_of_ne hother.1] at hl'
    refine .keeps hl' (.refl l') fun hsome => ?_
    rw [helapsed] at hsome
    cases hsome

/-! ### Operations that let no time pass -/

/-- Every lane that is there then is ready for another action, or its clock is as before. -/
def Rearms (s t : Session) : Prop :=
  ∀ id l', t.lane? id = some l' → l'.IsPrimed ∨ ∃ l, s.lane? id = some l ∧ l.Keeps l'

namespace Rearms

theorem of_lanes (h : ∀ id, t.lane? id = s.lane? id) : Rearms s t :=
  fun id l' hl' => .inr ⟨l', h id ▸ hl', .refl l'⟩

theorem trans (h : Rearms s t) (h' : Rearms t u) : Rearms s u := by
  intro id l'' hl''
  rcases h' id l'' hl'' with hprimed | ⟨l', hl', hkeeps'⟩
  · exact .inl hprimed
  · rcases h id l' hl' with hprimed | ⟨l, hl, hkeeps⟩
    · exact .inl ⟨hkeeps'.waiting.trans hprimed.waiting, hkeeps'.time.trans hprimed.time⟩
    · refine .inr ⟨l, hl, hkeeps'.waiting.trans hkeeps.waiting, hkeeps'.time.trans hkeeps.time, ?_⟩
      rcases hkeeps'.next with rfl | hend
      · exact hkeeps.next
      · exact .inr hend

theorem begins (h : t.Begins) : Rearms s t := by
  intro id l' hl'
  cases id with
  | main =>
    obtain rfl : t.main = l' := Option.some.inj hl'
    exact .inl (h.main ▸ ⟨rfl, rfl⟩)
  | side n =>
    rw [lane?, h.sides] at hl'
    cases hl'

theorem record (event : Event) : Rearms s (s.record event) := of_lanes fun id => by cases id <;> rfl

theorem changeLane {f : Lane → Lane} (hf : ∀ l, s.lane? id = some l → (f l).IsPrimed ∨ l.Keeps (f l)) :
    Rearms s (s.changeLane id f) := by
  intro other l' hl'
  by_cases hother : other = id
  · subst hother
    rw [lane?_changeLane_self] at hl'
    obtain ⟨l, hl, rfl⟩ := Option.map_eq_some_iff.mp hl'
    exact (hf l hl).imp_right fun hkeeps => ⟨l, hl, hkeeps⟩
  · rw [lane?_changeLane_of_ne hother] at hl'
    exact .inr ⟨l', hl', .refl l'⟩

theorem enter (cur : Cursor) : Rearms s (s.enter id cur) :=
  (record (.entered id cur.list)).trans (changeLane fun _ _ => .inl ⟨rfl, rfl⟩)

theorem advance : Rearms s (s.advance id) := by
  unfold Session.advance
  split
  · split
    · exact of_lanes fun _ => rfl
    · rename_i l hl
      split
      · exact changeLane fun _ _ => .inl ⟨rfl, rfl⟩
      · have hgo : Rearms s (s.changeLane id fun _ => l.advance.1) := changeLane fun k hk => by
          obtain rfl := Option.some.inj (hl.symm.trans hk)
          exact l.advance_rearms.imp_right And.right
        simp only
        split
        · exact hgo.trans (record _)
        · exact hgo
  · exact of_lanes fun id => by cases id <;> rfl

theorem unwind {depth : Nat} (h : s.unwind id depth = some t) : Rearms s t := by
  obtain ⟨-, -, -, rfl⟩ := eq_of_unwind h
  exact (changeLane fun _ _ => .inl ⟨rfl, rfl⟩).trans (record _)

theorem answer {k : Choice} (o : Offer) (hlane : ∀ l, s.lane? k.lane = some l → l.depth = k.depth - 1 + 1) :
    Rearms s (s.answer k o) := by
  -- The list of the choice is at its end then.
  have hpassed : Rearms s (s.changeLane k.lane (Lane.changeAt (k.depth - 1) Cursor.forwardEnd)) := by
    refine changeLane fun l hl => .inr ⟨rfl, rfl, .inr ?_⟩
    have hdepth := hlane l hl
    obtain ⟨outer, top, hcursors⟩ : ∃ outer top, l.cursors = outer ++ [top] := by
      rcases List.eq_nil_or_concat l.cursors with hnil | ⟨outer, top, hconcat⟩
      · simp [Lane.depth, hnil] at hdepth
      · exact ⟨outer, top, by rw [hconcat, List.concat_eq_append]⟩
    have hlength : k.depth - 1 = outer.length := by
      rw [Lane.depth, hcursors, List.length_append, List.length_singleton] at hdepth
      exact (Nat.succ.inj hdepth).symm
    rw [Lane.action?, Lane.top?, Lane.changeAt, hcursors, hlength, modify_middle, List.getLast?_concat, Option.bind_some]
    exact Cursor.action?_forwardEnd
  have hselected := hpassed.trans (record (.selected o.option))
  obtain ⟨q, hq, hanswer⟩ := answer_cases (s := s) k o
  have hstage := hselected.trans (of_lanes (t := q) fun id => by cases id <;> simp [lane?, hq.main, hq.sides])
  obtain hsame | ⟨list, -, henter⟩ := hanswer
  · rwa [hsame]
  · rw [henter]
    exact hstage.trans (enter _)

theorem select (index : Nat) : Rearms s (s.select index).1 := by
  have hcleared : Rearms s { s with choice := none } := of_lanes fun id => by cases id <;> rfl
  obtain hsame | ⟨k, -, ⟨-, hnone⟩ | ⟨o, u, hu, hanswered⟩⟩ := select_cases s index
  · rw [hsame]
    exact of_lanes fun _ => rfl
  · rwa [hnone]
  · rw [hanswered]
    exact hcleared.trans ((unwind hu).trans (answer _ (unwind_touches hu).2))

theorem cancelLoop (depth : Nat) : Rearms s (s.cancelLoop depth) := by
  unfold Session.cancelLoop
  cases hu : s.unwind .main depth with
  | none => exact of_lanes fun _ => rfl
  | some u => exact unwind hu

theorem removeActor (name : String) : Rearms s (s.removeActor name) := by
  refine of_lanes fun id => ?_
  unfold Session.removeActor
  simp only
  split <;> cases id <;> rfl

end Rearms

/-- Whether an operation is one thing. Skipping speech is a number of updates, and trying out an action for some time is
    starting over with it and an update. -/
def Op.IsSingle : Op → Prop
  | .fastForward => False
  | .playSingle _ seconds => ¬0 < seconds
  | _ => True

theorem Rearms.becomes (h : Rearms s t) (helapsed : s.elapsed? request = none) (hl' : t.lane? id = some l') :
    s.Becomes request id l' := by
  rcases h id l' hl' with hprimed | ⟨l, hl, hkeeps⟩
  · exact .primed hprimed
  · refine .keeps hl hkeeps fun hsome => ?_
    rw [helapsed] at hsome
    cases hsome

def Request.IsSingle : Request → Prop
  | .op operation => operation.IsSingle
  | .edit _ => True

/-- What becomes of the clock of a lane that no host has built itself. -/
theorem respond_becomes (hs : Arises c hosted s) (hspared : Spared hosted s request id) (hsingle : request.IsSingle)
    (h : s.respond request = some t) (hl' : t.lane? id = some l') : s.Becomes request id l' := by
  cases request with
  | edit world =>
    cases h
    exact (Rearms.of_lanes fun id => by cases id <;> rfl).becomes rfl hl'
  | op op =>
    obtain ⟨⟨u, reply⟩, hstep, rfl⟩ := Option.map_eq_some_iff.mp h
    cases op with
    | update e =>
      obtain ⟨v, hv, hreply⟩ := Option.bind_eq_some_iff.mp hstep
      cases hreply
      exact update_becomes hs hspared hv hl'
    | addSide l =>
      obtain ⟨v, hv, hreply⟩ := Option.bind_eq_some_iff.mp hstep
      cases hreply
      exact addSide_becomes hs rfl rfl hspared hv hl'
    | fastForward => cases hsingle
    | playSingle action seconds =>
      obtain ⟨v, hv, hreply⟩ := Option.bind_eq_some_iff.mp hstep
      cases hreply
      have hidle : ¬0 < seconds := hsingle
      rw [playSingle, if_neg hidle] at hv
      obtain rfl := Option.some.inj hv
      have hbegins := (begins_rewind { s with preview := some action }).1
      refine (Rearms.begins ?_).becomes rfl hl'
      exact ⟨hbegins.main, hbegins.sides, hbegins.choice, hbegins.played⟩
    | setTopic topic =>
      cases hstep
      refine Rearms.becomes ?_ rfl hl'
      unfold setTopic
      split
      · exact .of_lanes fun _ => rfl
      · exact .begins (begins_rewind _).1
    | rewind =>
      cases hstep
      exact (Rearms.begins (begins_rewind s).1).becomes rfl hl'
    | advance =>
      cases hstep
      exact Rearms.advance.becomes rfl hl'
    | cancelLoop depth =>
      cases hstep
      exact (Rearms.cancelLoop depth).becomes rfl hl'
    | select index =>
      cases hstep
      exact (Rearms.select index).becomes rfl hl'
    | removeActor name =>
      cases hstep
      exact (Rearms.removeActor name).becomes rfl hl'
    | setRunning | setPaused | setAutoAdvance | addActor | speech | world | takeInfo | takeEvents =>
      cases hstep
      exact (Rearms.of_lanes fun id => by cases id <;> rfl).becomes rfl hl'

end Session
end Dialogue
