import Dialogue.Proofs.Clocks

/-! Gates and delays. The clock of a lane belongs to its next action: it starts over whenever another action comes next,
    and runs only once the gate of the action has been found open. So every action is carried out after its own gate has
    been found open, and after no less time since then than its delay (`gate_and_delay`). -/

namespace Dialogue

/-- What a lane is about to do: how many lists it is in, and the next action. -/
def Lane.candidate (l : Lane) : Nat × Option ActionRef := (l.depth, l.action?)

namespace Session
variable {c : Conversation} {guests : Session → Lane → Prop} {hosted : List Nat} {past : List (Session × Request)}
variable {r s t u : Session} {id : LaneId} {l l' : Lane} {e : Seconds} {ref : ActionRef} {a : Action ListId}
variable {request : Request}

/-! ### Single requests -/

theorem skipSpeech_singles {left taken count : Nat} (h : s.skipSpeech left taken = some (t, count)) :
    ∃ requests : List Request, (∀ q ∈ requests, q.IsSingle ∧ q.lane? = none) ∧ requests.foldlM respond s = some t := by
  refine skipSpeech_preserves (P := fun t => ∃ requests : List Request,
    (∀ q ∈ requests, q.IsSingle ∧ q.lane? = none) ∧ requests.foldlM respond s = some t) ?_ ⟨[], by simp, rfl⟩ h
  rintro r u ⟨requests, hall, hfold⟩ hu
  refine ⟨requests ++ [.op (.update r.options.fastForwardStep)], ?_, ?_⟩
  · exact List.forall_mem_append.mpr ⟨hall, List.forall_mem_singleton.mpr ⟨trivial, rfl⟩⟩
  · rw [List.foldlM_append, hfold]
    simp [respond, step, hu]

/-- Whatever is requested can be requested by single things. -/
theorem respond_singles (hlane : request.lane? = none) (h : s.respond request = some t) :
    ∃ requests : List Request, (∀ q ∈ requests, q.IsSingle ∧ q.lane? = none) ∧ requests.foldlM respond s = some t := by
  have hitself : request.IsSingle →
      ∃ requests : List Request, (∀ q ∈ requests, q.IsSingle ∧ q.lane? = none) ∧ requests.foldlM respond s = some t :=
    fun hsingle => ⟨[request], by simpa using ⟨hsingle, hlane⟩, by simp [h]⟩
  cases request with
  | edit world => exact hitself trivial
  | op op =>
    cases op with
    | fastForward =>
      obtain ⟨⟨u, reply⟩, hstep, rfl⟩ := Option.map_eq_some_iff.mp h
      obtain ⟨⟨v, count⟩, hv, hreply⟩ := Option.bind_eq_some_iff.mp hstep
      cases hreply
      exact skipSpeech_singles hv
    | playSingle action seconds =>
      by_cases hsome : 0 < seconds
      · obtain ⟨⟨u, reply⟩, hstep, rfl⟩ := Option.map_eq_some_iff.mp h
        obtain ⟨v, hv, hreply⟩ := Option.bind_eq_some_iff.mp hstep
        cases hreply
        rw [playSingle, if_pos hsome] at hv
        have hnow : ¬(0 : Seconds) < 0 := by decide
        refine ⟨[.op (.playSingle action 0), .op (.update seconds)], ?_, ?_⟩
        · exact List.forall_mem_cons.mpr ⟨⟨hnow, rfl⟩, List.forall_mem_singleton.mpr ⟨trivial, rfl⟩⟩
        · simp [respond, step, playSingle, hnow, hv]
      · exact hitself hsome
    | addSide => cases hlane
    | setTopic | setRunning | setPaused | setAutoAdvance | update | rewind | advance | cancelLoop | select | addActor
    | removeActor | speech | world | takeInfo | takeEvents => exact hitself trivial

theorem Rests.follow {requests : List Request} (hs : Rests c guests hosted past s) (hpast : ∀ p ∈ past, p.2.IsSingle)
    (hall : ∀ q ∈ requests, q.IsSingle ∧ q.lane? = none) (h : requests.foldlM respond s = some t) :
    ∃ past, Rests c guests hosted past t ∧ ∀ p ∈ past, p.2.IsSingle := by
  induction requests generalizing s past with
  | nil =>
    cases h
    exact ⟨past, hs, hpast⟩
  | cons q requests ih =>
    obtain ⟨u, hu, hrest⟩ := Option.bind_eq_some_iff.mp h
    obtain ⟨⟨hsingle, hlane⟩, hall⟩ := List.forall_mem_cons.mp hall
    refine ih (.responds hs (fun l hl => nomatch hlane.symm.trans hl) hu) (fun p hp => ?_) hall hrest
    rcases List.mem_append.mp hp with hold | hnew
    · exact hpast p hold
    · exact List.mem_singleton.mp hnew ▸ hsingle

/-- Whatever a host comes to, it comes to by single requests. -/
theorem Rests.singly (h : Rests c guests hosted past s) :
    ∃ past, Rests c guests hosted past s ∧ ∀ p ∈ past, p.2.IsSingle := by
  have hadd : ∀ {past : List (Session × Request)} {s : Session} {l : Lane}, (∀ p ∈ past, p.2.IsSingle) →
      ∀ p ∈ past ++ [(s, Request.op (.addSide l))], p.2.IsSingle := by
    intro past s l hpast p hp
    rcases List.mem_append.mp hp with hold | hnew
    · exact hpast p hold
    · exact List.mem_singleton.mp hnew ▸ trivial
  induction h with
  | start interpreter options => exact ⟨[], .start interpreter options, by simp⟩
  | @responds _ _ _ _ request _ hguest h ih =>
    obtain ⟨past', hrests, hpast⟩ := ih
    cases hlane : request.lane? with
    | none =>
      obtain ⟨requests, hall, hfold⟩ := respond_singles hlane h
      exact hrests.follow hpast hall hfold
    | some l =>
      have hop : request = .op (.addSide l) := by
        unfold Request.lane? at hlane
        split at hlane
        · exact congrArg (Request.op ∘ Op.addSide) (Option.some.inj hlane)
        · cases hlane
      subst hop
      exact ⟨_, .responds hrests hguest h, hadd hpast⟩
  | hosts _ h ih =>
    obtain ⟨past', hrests, hpast⟩ := ih
    exact ⟨_, .hosts hrests h, hadd hpast⟩

/-! ### Gates that have been found open -/

/-- While a request is dealt with, a pass finds the gate open for which the next action of its lane has waited. -/
def FindsOpen (s : Session) (request : Request) (id : LaneId) (candidate : Nat × Option ActionRef) (e : Seconds) : Prop :=
  ∃ r l ref a, s.Due request r id e ∧ r.lane? id = some l ∧ l.candidate = candidate ∧ l.waiting = true ∧
    l.action? = some ref ∧ r.action? ref = some a ∧ r.Admits a

/-- A pass has found the gate of the next action open. Since then the same action has been next, and has not had to wait
    for actors again; and the lane has counted the times that have passed, that of the pass first. -/
def HeldOpen (past : List (Session × Request)) (id : LaneId) (l : Lane) : Prop :=
  ∃ before opening after e, past = before ++ opening :: after ∧ opening.1.FindsOpen opening.2 id l.candidate e ∧
    (∀ p ∈ after, ∃ k, p.1.lane? id = some k ∧ k.candidate = l.candidate ∧ k.waiting = false) ∧
    l.time = (e :: after.filterMap fun p => p.1.elapsed? p.2).foldl (· + ·) 0

theorem HeldOpen.later (h : HeldOpen past id l) (hl : s.lane? id = some l) (hwaiting : l.waiting = false)
    (hcandidate : l'.candidate = l.candidate) (htime : l'.time = (s.elapsed? request).elim l.time (l.time + ·)) :
    HeldOpen (past ++ [(s, request)]) id l' := by
  obtain ⟨before, opening, after, e, rfl, hopens, hafter, hsum⟩ := h
  refine ⟨before, opening, after ++ [(s, request)], e, by simp, hcandidate ▸ hopens, fun p hp => ?_, ?_⟩
  · rcases List.mem_append.mp hp with hold | hnew
    · exact hcandidate ▸ hafter p hold
    · obtain rfl := List.mem_singleton.mp hnew
      exact ⟨l, hl, hcandidate.symm, hwaiting⟩
  · rw [List.filterMap_append, ← List.cons_append, List.foldl_append, ← hsum, htime]
    cases h : s.elapsed? request <;> simp [h]

/-- The clock of a lane: nothing is counted while the next action waits for actors, and then all time since its gate has
    been found open. -/
structure Clocked (past : List (Session × Request)) (id : LaneId) (l : Lane) : Prop where
  waits : l.waiting = true → l.time = 0
  runs : l.waiting = false → l.action?.isSome → HeldOpen past id l

theorem clocked_of_primed (h : l.IsPrimed) : Clocked past id l :=
  ⟨fun _ => h.time, fun hwaiting => by rw [h.waiting] at hwaiting; cases hwaiting⟩

/-- A request keeps the clock. -/
theorem Becomes.clocked (h : s.Becomes request id l') (hs : Arises c hosted s) (hspared : Spared hosted s request id)
    (hbefore : ∀ l, s.lane? id = some l → Clocked past id l) : Clocked (past ++ [(s, request)]) id l' := by
  cases h with
  | primed h => exact clocked_of_primed h
  | @keeps l hl hkeeps hstill =>
    have hclock := hbefore l hl
    refine ⟨fun hwaiting => ?_, fun hwaiting hnext => ?_⟩
    · rw [hkeeps.time]
      exact hclock.waits (hkeeps.waiting.symm.trans hwaiting)
    · rcases hkeeps.next with rfl | hend
      · cases htime : s.elapsed? request with
        | none => exact (hclock.runs hwaiting hnext).later hl hwaiting rfl (by rw [htime]; rfl)
        | some e =>
          have hwaits := hstill (by rw [htime]; rfl) hnext
          rw [hwaiting] at hwaits
          cases hwaits
      · rw [hend] at hnext
        cases hnext
  | @timed r e l ref a hdue hl hnext ha hgate h =>
    subst h
    refine ⟨fun hwaiting => absurd hwaiting Bool.false_ne_true, fun _ _ => ?_⟩
    obtain ⟨k, hk, hcases⟩ := hdue.lane hs hspared
    obtain rfl := Option.some.inj (hl.symm.trans hk)
    -- The gate is found open only now.
    have hnow : l.waiting = true → l.time = 0 → HeldOpen (past ++ [(s, request)]) id
        { l with waiting := false, time := l.time + e } := fun hwaiting hzero =>
      ⟨past, (s, request), [], e, rfl, ⟨r, l, ref, a, hdue, hl, rfl, hwaiting, hnext, ha, hgate hwaiting⟩, by simp,
        by simp [hzero]⟩
    rcases hcases with ⟨hold, htime⟩ | ⟨-, hprimed⟩
    · cases hwaiting : l.waiting with
      | true => exact hnow hwaiting ((hbefore l hold).waits hwaiting)
      | false =>
        refine ((hbefore l hold).runs hwaiting (by rw [hnext]; rfl)).later hold hwaiting rfl ?_
        rw [htime]
        rfl
    · exact hnow hprimed.waiting hprimed.time

theorem Rests.clocked (hs : Rests c IsTopicLane hosted past s) (hsingle : ∀ p ∈ past, p.2.IsSingle)
    (hid : ∀ n ∈ hosted, id ≠ .side n) : ∀ l, s.lane? id = some l → Clocked past id l := by
  induction hs with
  | start interpreter options =>
    intro l hl
    cases id with
    | main =>
      cases hl
      exact clocked_of_primed ⟨rfl, rfl⟩
    | side n => cases hl
  | responds hs hguest h ih =>
    intro l' hl'
    have harises := hs.arises fun _ _ h => h
    have hspared : Spared _ _ _ id := ⟨hid, fun l hl => .inl (hguest l hl)⟩
    have hlast := hsingle _ (List.mem_append_right _ (List.mem_singleton_self _))
    exact (respond_becomes harises hspared hlast h hl').clocked harises hspared
      (ih (fun p hp => hsingle p (List.mem_append_left _ hp)) hid)
  | @hosts hosted past s t l₀ hs h ih =>
    intro l' hl'
    have harises := hs.arises fun _ _ h => h
    have hold : ∀ n ∈ hosted, id ≠ .side n := fun n hn => hid n (List.mem_cons_of_mem _ hn)
    have hspared : Spared hosted s (.op (.addSide l₀)) id := ⟨hold, fun _ _ => .inr (hid _ List.mem_cons_self)⟩
    exact (addSide_becomes harises rfl rfl hspared h hl').clocked harises hspared
      (ih (fun p hp => hsingle p (List.mem_append_left _ hp)) hold)

/-! ### Requests -/

/-- Another action comes next only when it waits for actors from the start. -/
theorem Becomes.primed_of_ne (h : s.Becomes request id l') (hs : Arises c hosted s)
    (hspared : Spared hosted s request id) (hl : s.lane? id = some l) (hne : l'.candidate ≠ l.candidate)
    (hnext : l'.action?.isSome) : l'.IsPrimed := by
  cases h with
  | primed h => exact h
  | keeps hl' hkeeps =>
    obtain rfl := Option.some.inj (hl.symm.trans hl')
    exact absurd (congrArg Lane.candidate (hkeeps.eq hnext)) hne
  | timed hdue hr _ _ _ h =>
    obtain ⟨k, hk, ⟨hold, -⟩ | ⟨hnone, -⟩⟩ := hdue.lane hs hspared
    · obtain rfl := Option.some.inj (hr.symm.trans hk)
      obtain rfl := Option.some.inj (hl.symm.trans hold)
      exact absurd (congrArg Lane.candidate h) hne
    · cases hl.symm.trans hnone

/-- The next action stops waiting for actors only when a pass finds its gate open. -/
theorem Becomes.findsOpen (h : s.Becomes request id l') (hs : Arises c hosted s) (hspared : Spared hosted s request id)
    (hwaiting : l'.waiting = false) (hbefore : ∀ l, s.lane? id = some l → l.waiting = true) :
    ∃ e, s.FindsOpen request id l'.candidate e := by
  cases h with
  | primed h =>
    rw [h.waiting] at hwaiting
    cases hwaiting
  | keeps hl hkeeps =>
    rw [hkeeps.waiting, hbefore _ hl] at hwaiting
    cases hwaiting
  | @timed r e l ref a hdue hr hnext ha hgate h =>
    subst h
    obtain ⟨k, hk, hcases⟩ := hdue.lane hs hspared
    obtain rfl := Option.some.inj (hr.symm.trans hk)
    have hwaits : l.waiting = true := by
      rcases hcases with ⟨hold, -⟩ | ⟨-, hprimed⟩
      · exact hbefore l hold
      · exact hprimed.waiting
    exact ⟨e, r, l, ref, a, hdue, hr, rfl, hwaits, hnext, ha, hgate hwaits⟩

/-- Gates and delays of a lane that no host has built itself, when skipping speech and trying out an action count as the
    single requests that they are made of. While the next action waits for actors, no time is counted. A request after
    which another action is next leaves it waiting, with no time counted; and an action stops waiting for actors only in a
    pass that finds its gate open. So an action is carried out only when its gate is found open just then, or has been
    before, while the same action has been next; and its delay is over by the time counted since then. -/
theorem gate_and_delay (hs : Rests c IsTopicLane hosted past s) (hid : ∀ n ∈ hosted, id ≠ .side n) :
    (∀ l, s.lane? id = some l → l.waiting = true → l.time = 0) ∧
    ∀ request : Request, request.IsSingle →
      (∀ l, request.lane? = some l → s.IsTopicLane l ∨ id ≠ .side s.nextSide) →
      (∀ t l l', s.respond request = some t → s.lane? id = some l → t.lane? id = some l' →
        l'.candidate ≠ l.candidate → l'.action?.isSome → l'.waiting = true ∧ l'.time = 0) ∧
      (∀ t l', s.respond request = some t → t.lane? id = some l' → l'.waiting = false →
        (∀ l, s.lane? id = some l → l.waiting = true) → ∃ e, s.FindsOpen request id l'.candidate e) ∧
      ∀ r e l ref a, (∀ p ∈ past, p.2.IsSingle) → s.Due request r id e → r.Carries id e l ref a →
        ¬l.time + e < a.delay ∧
          (l.waiting = true ∧ l.time = 0 ∧ r.Admits a ∨
            s.lane? id = some l ∧ l.waiting = false ∧ HeldOpen past id l) := by
  have harises : Arises c hosted s := hs.arises fun _ _ h => h
  obtain ⟨past', hrests, hpast'⟩ := hs.singly
  have hwaits : ∀ l, s.lane? id = some l → l.waiting = true → l.time = 0 := fun l hl =>
    (hrests.clocked hpast' hid l hl).waits
  refine ⟨hwaits, fun request hsingle hnow => ?_⟩
  have hspared : Spared hosted s request id := ⟨hid, hnow⟩
  refine ⟨fun t l l' h hl hl' hne hnext => ?_, fun t l' h hl' hwaiting hbefore => ?_,
    fun r e l ref a hpast hdue hcarries => ⟨hcarries.due, ?_⟩⟩
  · have hprimed := (respond_becomes harises hspared hsingle h hl').primed_of_ne harises hspared hl hne hnext
    exact ⟨hprimed.waiting, hprimed.time⟩
  · exact (respond_becomes harises hspared hsingle h hl').findsOpen harises hspared hwaiting hbefore
  · obtain ⟨hosted', hr, hfree⟩ := hdue.spared harises hspared
    obtain ⟨k, hk, hcases⟩ := hdue.lane harises hspared
    obtain rfl := hcarries.lane_eq hr.rooted (hr.regular.grown id k hfree hk).guarded hk
    cases hwaiting : l.waiting with
    | true =>
      have hgate := hcarries.gate
      rw [hwaiting, Bool.true_and] at hgate
      refine .inl ⟨rfl, ?_, (opened_alike r id).admits.mp (admits_iff.mpr hgate)⟩
      rcases hcases with ⟨hold, -⟩ | ⟨-, hprimed⟩
      · exact hwaits l hold hwaiting
      · exact hprimed.time
    | false =>
      rcases hcases with ⟨hold, -⟩ | ⟨-, hprimed⟩
      · exact .inr ⟨hold, rfl, (hs.clocked hpast hid l hold).runs hwaiting (by rw [hcarries.next]; rfl)⟩
      · rw [hprimed.waiting] at hwaiting
        cases hwaiting

end Session

/-- A line, and an action that waits until it is over and then for two seconds. -/
def Document.bench : Document where
  profiles := [{ id := "ann", alias? := none, parameters := .empty, commands := .empty }]
  values := .empty
  gameCommands := .empty
  files := [{
    id := "tale"
    topics := [
      { id := "bench"
        block := ⟨[
          { kind := .cue (.speak "ann" (some "hm") 2 []) }, { delay := 2, kind := .cue (.comment "silence") }]⟩ }] }]

/-- Two seconds after the gate has been found open, the action is carried out. -/
theorem gate_and_delay_bench :
    ∃ c s past l ref a, Document.bench.load = .ok c ∧ Session.Rests c Session.IsTopicLane [] past s ∧
      (∀ p ∈ past, p.2.IsSingle) ∧ s.Due (.op (.update 1)) (s.aged 1) .main 1 ∧
      (s.aged 1).Carries .main 1 l ref a ∧ a.delay = 2 ∧ ¬l.time + 1 < a.delay ∧ l.waiting = false ∧
      Session.HeldOpen past .main l := by
  have hplayed : ∃ c, Document.bench.load = .ok c ∧
      ((Session.start c (.scripted .zeros) {}).steps
        [.setTopic (some ⟨0⟩), .setRunning true, .update 1, .update 1, .update 1]).any fun s =>
          decide s.Plays && decide (s.order = [.main]) &&
            ((s.aged 1).carrying? .main 1).any fun x => !x.1.waiting && decide (x.2.2.delay = 2) :=
    ⟨_, rfl, by decide +kernel⟩
  obtain ⟨c, s, past, hc, hrests, hall⟩ := Session.exists_rests (by simp) hplayed
  simp only [Bool.and_eq_true, decide_eq_true_eq] at hall
  obtain ⟨⟨hplays, horder⟩, hcarrying⟩ := hall
  obtain ⟨⟨l, ref, a⟩, hcarries, hopen⟩ := (Option.any_eq_true _ _).mp hcarrying
  simp only [Bool.and_eq_true, Bool.not_eq_true', decide_eq_true_eq] at hopen
  obtain ⟨past, hrests, hsingle⟩ := hrests.singly
  have hdue : s.Due (.op (.update 1)) (s.aged 1) .main 1 :=
    @Session.Due.frame s _ 1 (s.aged 1) [] [] .main rfl hplays horder rfl
  have hcarries := Session.carries_iff.mpr hcarries
  have hmain : ∀ n ∈ ([] : List Nat), LaneId.main ≠ .side n := by simp
  obtain ⟨-, hrequest⟩ := Session.gate_and_delay hrests hmain
  obtain ⟨-, -, hcarried⟩ := hrequest (.op (.update 1)) trivial (by simp [Session.Request.lane?])
  obtain ⟨hlate, ⟨hwaits, -⟩ | ⟨-, hwaiting, hheld⟩⟩ := hcarried _ _ _ _ _ hsingle hdue hcarries
  · cases hopen.1.symm.trans hwaits
  · exact ⟨c, s, past, l, ref, a, hc, hrests, hsingle, hdue, hcarries, hopen.2, hlate, hwaiting, hheld⟩

end Dialogue
