import Dialogue.Proofs.Stretches

/-! What holds of every session, whatever a host does with it and whichever interpreter it has. Side lanes are kept in
    the order of their numbers, which are given out once, and lanes are built by playing the script, apart from those
    that a host has built itself (`Arises.regular`). -/

namespace Dialogue
namespace Session
variable {c : Conversation} {hosted : List Nat} {s t u : Session} {id : LaneId} {e : Seconds}

/-- The sessions that arise while a conversation is played: between the operations of a host, and within them whenever
    a lane is about to have a pass. The numbers are those of the lanes that the host has built itself. -/
inductive Arises (c : Conversation) : List Nat → Session → Prop where
  | start (interpreter : Interpreter) (options : Options) : Arises c [] (.start c interpreter options)
  | step {hosted : List Nat} {s t : Session} {op : Op} {reply : Reply} (hs : Arises c hosted s)
      (hop : ∀ l, op ≠ .addSide l) (h : s.step op = some (t, reply)) : Arises c hosted t
  /-- The host does anything to the world. -/
  | edited {hosted : List Nat} {s : Session} (hs : Arises c hosted s) (world : World) : Arises c hosted { s with world }
  /-- The host adds a side lane at the start of a topic. -/
  | added {hosted : List Nat} {s : Session} (hs : Arises c hosted s) (topic : TopicId) (parent : Option ActionRef) :
      Arises c hosted (s.addLane (s.topicLane topic parent))
  /-- The host adds a side lane of its own. -/
  | hosted {hosted : List Nat} {s : Session} (hs : Arises c hosted s) (l : Lane) :
      Arises c (s.nextSide :: hosted) (s.addLane l)
  /-- A frame begins. -/
  | aged {hosted : List Nat} {s : Session} (hs : Arises c hosted s) (e : Seconds) : Arises c hosted (s.aged e)
  | pass {hosted : List Nat} {s t : Session} {id : LaneId} {e : Seconds} (hs : Arises c hosted s)
      (h : s.pass id e = some t) : Arises c hosted t
  /-- A pass has added a side lane, which is about to have its first one. -/
  | started {hosted : List Nat} {s : Session} {id : LaneId} {e : Seconds} {l : Lane} {ref : ActionRef}
      {a : Action ListId} {topic : TopicId} (hs : Arises c hosted s) (h : s.Carries id e l ref a)
      (htopic : s.sideTopic? a = some topic) : Arises c hosted (s.started id e l ref a topic)

/-- What holds of every session. -/
structure Regular (c : Conversation) (hosted : List Nat) (s : Session) : Prop where
  conversation : s.conversation = c
  numbered : s.Numbered
  ordered : s.numbers.Pairwise (· < ·)
  grown : ∀ id l, (∀ n ∈ hosted, id ≠ .side n) → s.lane? id = some l → s.Grown l

namespace Regular

theorem same (h : Regular c hosted s) (hlists : SameLists s t) (hmain : t.main = s.main) (hsides : t.sides = s.sides)
    (hnext : t.nextSide = s.nextSide) : Regular c hosted t := by
  have hlane : ∀ id, t.lane? id = s.lane? id := by
    intro id
    cases id <;> simp [lane?, hmain, hsides]
  refine ⟨hlists.conversation.trans h.conversation, ?_, ?_, fun id l hid hl => ?_⟩
  · unfold Numbered
    rw [hsides, hnext]
    exact h.numbered
  · rw [Session.numbers, hsides]
    exact h.ordered
  · exact hlists.grown (h.grown id l hid (hlane id ▸ hl))

theorem confined {acting : List LaneId} (h : Regular c hosted s) (hconfined : Confined id acting s t) :
    Regular c hosted t := by
  refine ⟨hconfined.lists.conversation.trans h.conversation, hconfined.numbered h.numbered, ?_, ?_⟩
  · refine List.Pairwise.sublist hconfined.numbers
      (List.pairwise_append.mpr ⟨h.ordered, List.pairwise_lt_range', fun m hm n hn => ?_⟩)
    exact Nat.lt_of_lt_of_le (numbered_iff.mp h.numbered m hm) (List.mem_range'_1.mp hn).1
  · intro other l hother hl
    rcases hconfined.lane hl with ⟨l₀, hl₀, hgrows⟩ | ⟨-, hlaunched⟩
    · exact hconfined.lists.grown ((h.grown other l₀ hother hl₀).later hgrows)
    · exact hconfined.lists.grown hlaunched.grown

theorem touches (h : Regular c hosted s) (htouch : Touches id s t) : Regular c hosted t :=
  h.confined (.of_touches htouch h.numbered)

theorem pass (h : Regular c hosted s) (hpass : s.pass id e = some t) : Regular c hosted t := by
  obtain ⟨acting, hconfined⟩ := pass_confined h.numbered hpass
  exact h.confined hconfined

theorem addLane (h : Regular c hosted s) {l₀ : Lane} (more : List Nat)
    (hfresh : (∀ n ∈ more ++ hosted, n ≠ s.nextSide) → s.Grown l₀) : Regular c (more ++ hosted) (s.addLane l₀) := by
  have hadd := Effect.addLane h.numbered l₀
  have hlists : SameLists s (s.addLane l₀) := ⟨rfl, rfl, rfl⟩
  refine ⟨h.conversation, hadd.numbered h.numbered, ?_, fun id l hid hl => ?_⟩
  · have hnumbers : (s.addLane l₀).numbers = s.numbers ++ [s.nextSide] := by
      simp [Session.numbers, Session.addLane, record]
    rw [hnumbers, List.pairwise_append]
    refine ⟨h.ordered, List.pairwise_singleton _ _, fun m hm n hn => ?_⟩
    rw [List.mem_singleton.mp hn]
    exact numbered_iff.mp h.numbered m hm
  · by_cases hnew : id = .side s.nextSide
    · subst hnew
      obtain rfl : l₀ = l := Option.some.inj ((lane?_addLane h.numbered).symm.trans hl)
      exact hlists.grown (hfresh fun n hn heq => hid n hn (heq ▸ rfl))
    · rw [lane?_addLane_of_ne hnew] at hl
      exact hlists.grown (h.grown id l (fun n hn => hid n (List.mem_append_right _ hn)) hl)

theorem started {l : Lane} {ref : ActionRef} {a : Action ListId} {topic : TopicId} (h : Regular c hosted s)
    (hcarries : s.Carries id e l ref a) : Regular c hosted (s.started id e l ref a topic) := by
  obtain ⟨r, htouch, hcarried, -, -⟩ := carried_touches hcarries
  have hnoted : Regular c hosted (s.carried id e l ref a) :=
    hcarried ▸ (h.touches htouch).same ⟨rfl, rfl, rfl⟩ rfl rfl rfl
  exact hnoted.addLane [] fun _ => .topic .refl

/-- Whatever has been played, at the start there are no side lanes, and the main lane is at its root. -/
theorem begins (hconversation : s.conversation = c) (h : s.Begins) : Regular c hosted s := by
  refine ⟨hconversation, h.numbered, ?_, fun id l _ hl => ?_⟩
  · rw [numbers, h.sides]
    exact .nil
  · cases id with
    | main =>
      obtain rfl : s.main = l := Option.some.inj hl
      rw [h.main]
      exact .main (.single (.played (.rooted rfl)))
    | side n =>
      rw [lane?, h.sides] at hl
      cases hl

theorem stretches (h : Regular c hosted s) (hstretches : Stretches s t) : Regular c hosted t := by
  induction hstretches with
  | refl => exact h
  | tail _ hstretch ih =>
    cases hstretch with
    | confined hconfined => exact ih.confined hconfined
    | steady hsteady => exact ih.same hsteady.lists hsteady.main hsteady.sides hsteady.nextSide
    | rewound hconversation hbegins => exact .begins (hconversation.trans ih.conversation) hbegins

theorem step {op : Op} {reply : Reply} (h : Regular c hosted s) (hop : ∀ l, op ≠ .addSide l)
    (hstep : s.step op = some (t, reply)) : Regular c hosted t :=
  h.stretches (step_stretches h.numbered hop hstep)

end Regular

theorem Arises.regular (h : Arises c hosted s) : Regular c hosted s := by
  induction h with
  | start interpreter options => exact .begins rfl (begins_start interpreter options)
  | step _ hop h ih => exact ih.step hop h
  | edited _ world ih => exact ih.same ⟨rfl, rfl, rfl⟩ rfl rfl rfl
  | added _ topic parent ih => exact ih.addLane [] fun _ => .topic .refl
  | @hosted _ s _ l ih => exact ih.addLane [s.nextSide] fun hn => absurd rfl (hn s.nextSide (by simp))
  | aged _ e ih => exact ih.touches (aged_touches _ e .main)
  | pass _ h ih => exact ih.pass h
  | started _ h _ ih => exact ih.started h

/-- A pass that looks for the next action of a lane finds it. -/
theorem Arises.finds {l : Lane} {ref : ActionRef} (hs : Arises c hosted s) (hid : ∀ n ∈ hosted, id ≠ .side n)
    (hl : (s.opened id).lane? id = some l) (hnext : l.action? = some ref) : ((s.opened id).action? ref).isSome := by
  have hgrown := (hs.regular.touches (opened_touches s id)).grown id l hid hl
  obtain ⟨cur, htop, hcur⟩ := Option.bind_eq_some_iff.mp hnext
  exact (hgrown.fits cur (List.mem_of_getLast? htop)).action? hcur

theorem Arises.steps {ops : List Op} (hs : Arises c hosted s) (hops : ∀ op ∈ ops, ∀ l, op ≠ .addSide l)
    (h : s.steps ops = some t) : Arises c hosted t := by
  induction ops generalizing s with
  | nil =>
    cases h
    exact hs
  | cons op ops ih =>
    obtain ⟨u, hu, hrest⟩ := Option.bind_eq_some_iff.mp h
    obtain ⟨⟨u, reply⟩, hstep, rfl⟩ := Option.map_eq_some_iff.mp hu
    exact ih (.step hs (hops op List.mem_cons_self) hstep) (fun op hop => hops op (List.mem_cons_of_mem _ hop)) hrest

theorem exists_arises {d : Document} {interpreter : Interpreter} {options : Options} {ops : List Op} {p : Session → Bool}
    (hops : ∀ op ∈ ops, ∀ l, op ≠ .addSide l)
    (h : ∃ c, d.load = .ok c ∧ ((Session.start c interpreter options).steps ops).any p) :
    ∃ c s, d.load = .ok c ∧ Arises c [] s ∧ p s := by
  obtain ⟨c, hc, hplayed⟩ := h
  obtain ⟨s, hs, hp⟩ := (Option.any_eq_true _ _).mp hplayed
  exact ⟨c, s, hc, (Arises.start interpreter options).steps hops hs, hp⟩

/-! ### What is kept -/

/-- What holds at the start and is kept by every stretch. -/
structure Kept (P : Session → Prop) : Prop where
  begins : ∀ {s}, s.Begins → P s
  steady : ∀ {s t}, P s → Steady s t → P t
  confined : ∀ {s t id acting}, s.Numbered → P s → Confined id acting s t → P t

variable {P : Session → Prop}

theorem Kept.stretches (hP : Kept P) (hnum : s.Numbered) (hs : P s) (h : Stretches s t) : P t := by
  induction h with
  | refl => exact hs
  | tail hprev hstretch ih =>
    cases hstretch with
    | confined hconfined => exact hP.confined (Stretches.numbered hprev hnum) ih hconfined
    | steady hsteady => exact hP.steady ih hsteady
    | rewound _ hbegins => exact hP.begins hbegins

theorem Kept.touches (hP : Kept P) (hnum : s.Numbered) (hs : P s) (h : Touches id s t) : P t :=
  hP.confined hnum hs (.of_touches h hnum)

theorem Arises.keeps (hP : Kept P) (hadd : ∀ {s l}, s.Numbered → P s → P (s.addLane l)) (h : Arises c hosted s) : P s := by
  induction h with
  | start interpreter options => exact hP.begins (begins_start interpreter options)
  | step hs hop h ih => exact hP.stretches hs.regular.numbered ih (step_stretches hs.regular.numbered hop h)
  | edited _ world ih => exact hP.steady ih ⟨⟨rfl, rfl, rfl⟩, rfl, rfl, rfl, fun _ h => h, rfl⟩
  | added hs | hosted hs => exact hadd hs.regular.numbered ‹_›
  | aged hs e ih => exact hP.touches hs.regular.numbered ih (aged_touches _ e .main)
  | pass hs h ih =>
    obtain ⟨acting, hconfined⟩ := pass_confined hs.regular.numbered h
    exact hP.confined hs.regular.numbered ih hconfined
  | @started _ s id e l ref a topic hs h _ ih =>
    obtain ⟨r, htouch, hcarried, -, ha⟩ := carried_touches h
    have hr : r.Numbered := htouch.spans.numbered hs.regular.numbered
    have hnote : Confined id [id] r (s.carried id e l ref a) := hcarried ▸ .note hr (Option.isSome_of_eq_some ha)
    exact hadd (hnote.numbered hr) (hP.confined hr (hP.touches hs.regular.numbered ih htouch) hnote)

/-! ### Between the operations of a host -/

/-- Something that a host wants done. -/
inductive Request where
  | op (op : Op)
  /-- The world is changed in whatever way. -/
  | edit (world : World)

/-- The side lane that a host wants to add. -/
def Request.lane? : Request → Option Lane
  | .op (.addSide l) => some l
  | _ => none

def respond (s : Session) : Request → Option Session
  | .op op => (·.1) <$> s.step op
  | .edit world => some { s with world }

/-- The sessions between the operations of a host, which adds side lanes of some sort (`guests`), and others that it has
    built itself. The numbers are those of the latter, and `past` is what the host has wanted before, each time with the
    session that it has had then. -/
inductive Rests (c : Conversation) (guests : Session → Lane → Prop) :
    List Nat → (past : List (Session × Request)) → Session → Prop where
  | start (interpreter : Interpreter) (options : Options) : Rests c guests [] [] (.start c interpreter options)
  | responds {hosted : List Nat} {past : List (Session × Request)} {s t : Session} {request : Request}
      (hs : Rests c guests hosted past s) (hguest : ∀ l, request.lane? = some l → guests s l)
      (h : s.respond request = some t) : Rests c guests hosted (past ++ [(s, request)]) t
  | hosts {hosted : List Nat} {past : List (Session × Request)} {s t : Session} {l : Lane}
      (hs : Rests c guests hosted past s) (h : s.addSide l = some t) :
      Rests c guests (s.nextSide :: hosted) (past ++ [(s, .op (.addSide l))]) t

/-- A lane at the start of a topic. -/
def IsTopicLane (s : Session) (l : Lane) : Prop := ∃ topic parent, l = s.topicLane topic parent

variable {guests : Session → Lane → Prop} {past : List (Session × Request)} {request : Request}

theorem respond_stretches (hs : s.Numbered) (hlane : request.lane? = none) (h : s.respond request = some t) :
    Stretches s t := by
  cases request with
  | op op =>
    obtain ⟨⟨u, reply⟩, hstep, rfl⟩ := Option.map_eq_some_iff.mp h
    refine step_stretches hs (fun l hop => ?_) hstep
    subst hop
    cases hlane
  | edit world =>
    cases h
    exact .single (.steady ⟨⟨rfl, rfl, rfl⟩, rfl, rfl, rfl, fun _ h => h, rfl⟩)

theorem respond_lane {l : Lane} (hlane : request.lane? = some l) (h : s.respond request = some t) :
    s.addSide l = some t := by
  unfold Request.lane? at hlane
  split at hlane
  · cases hlane
    obtain ⟨⟨u, reply⟩, hstep, rfl⟩ := Option.map_eq_some_iff.mp h
    obtain ⟨u, hu, hreply⟩ := Option.bind_eq_some_iff.mp hstep
    cases hreply
    exact hu
  · cases hlane

/-- A lane that is added has a pass, which concerns that lane. -/
theorem addSide_confined {l : Lane} (hs : s.Numbered) (h : s.addSide l = some t) :
    (s.addLane l).Numbered ∧ ∃ acting, Confined (.side s.nextSide) acting (s.addLane l) t := by
  have hadded := (Effect.addLane hs l).numbered hs
  exact ⟨hadded, pass_confined hadded h⟩

theorem Rests.arises (hguests : ∀ s l, guests s l → s.IsTopicLane l) (h : Rests c guests hosted past s) :
    Arises c hosted s := by
  induction h with
  | start interpreter options => exact .start interpreter options
  | @responds _ _ s _ request _ hguest h ih =>
    cases hlane : request.lane? with
    | some l =>
      obtain ⟨topic, parent, rfl⟩ := hguests s l (hguest l hlane)
      exact .pass (.added ih topic parent) (respond_lane hlane h)
    | none =>
      cases request with
      | op op =>
        obtain ⟨⟨u, reply⟩, hstep, rfl⟩ := Option.map_eq_some_iff.mp h
        refine .step ih (fun l hop => ?_) hstep
        subst hop
        cases hlane
      | edit world =>
        cases h
        exact .edited ih world
  | hosts _ h ih => exact .pass (.hosted ih _) h

theorem Rests.keeps (hP : Kept P) (hguests : ∀ s l, guests s l → s.IsTopicLane l)
    (hadd : ∀ {s t l}, s.Numbered → P s → guests s l → s.addSide l = some t → P t) (h : Rests c guests [] past s) :
    P s := by
  generalize hnil : ([] : List Nat) = hosted at h
  induction h with
  | start interpreter options => exact hP.begins (begins_start interpreter options)
  | @responds _ _ s _ request hs hguest h ih =>
    have hnum := (hs.arises hguests).regular.numbered
    cases hlane : request.lane? with
    | none => exact hP.stretches hnum (ih hnil) (respond_stretches hnum hlane h)
    | some l => exact hadd hnum (ih hnil) (hguest l hlane) (respond_lane hlane h)
  | hosts => cases hnil

theorem Rests.steps {ops : List Op} (hs : Rests c guests hosted past s) (hops : ∀ op ∈ ops, ∀ l, op ≠ .addSide l)
    (h : s.steps ops = some t) : ∃ past, Rests c guests hosted past t := by
  induction ops generalizing s past with
  | nil =>
    cases h
    exact ⟨past, hs⟩
  | cons op ops ih =>
    obtain ⟨u, hu, hrest⟩ := Option.bind_eq_some_iff.mp h
    have hnone : ∀ l, (Request.op op).lane? = some l → guests s l := by
      intro l hl
      unfold Request.lane? at hl
      split at hl
      · rename_i heq
        cases heq
        exact absurd rfl (hops _ List.mem_cons_self _)
      · cases hl
    exact ih (.responds hs hnone hu) (fun op hop => hops op (List.mem_cons_of_mem _ hop)) hrest

theorem exists_rests {d : Document} {interpreter : Interpreter} {options : Options} {ops : List Op} {p : Session → Bool}
    (hops : ∀ op ∈ ops, ∀ l, op ≠ .addSide l)
    (h : ∃ c, d.load = .ok c ∧ ((Session.start c interpreter options).steps ops).any p) :
    ∃ c s past, d.load = .ok c ∧ Rests c guests [] past s ∧ p s := by
  obtain ⟨c, hc, hplayed⟩ := h
  obtain ⟨s, hs, hp⟩ := (Option.any_eq_true _ _).mp hplayed
  have hstart : Rests c guests [] [] (.start c interpreter options) := .start interpreter options
  obtain ⟨past, hrests⟩ := hstart.steps hops hs
  exact ⟨c, s, past, hc, hrests, hp⟩

end Session
end Dialogue
