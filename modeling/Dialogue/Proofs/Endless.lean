import Mathlib.Data.Finset.Card
import Dialogue.Proofs.Schedule

/-! When playing does not end. The first pass of a side lane may start another side lane, and so on; a pass does not
    return if this goes on for ever, which depends on the first actions of the topics only. So every frame ends unless
    some topics of a conversation start each other in a circle (`update_returns`). -/

namespace Dialogue

/-! ### Following topics -/

/-- From the topic one can go on for ever. -/
def Endless (next : TopicId → Option TopicId) (t : TopicId) : Prop :=
  ∃ f : Nat → TopicId, f 0 = t ∧ ∀ k, next (f k) = some (f (k + 1))

/-- Where one is after a number of steps. -/
def follow (next : TopicId → Option TopicId) : Nat → TopicId → Option TopicId
  | 0, t => some t
  | n + 1, t => (next t).bind (follow next n)

section Following
variable {next : TopicId → Option TopicId} {t : TopicId} {m n : Nat}

theorem follow_add : follow next (m + n) t = (follow next m t).bind (follow next n) := by
  induction m generalizing t with
  | zero => rw [Nat.zero_add, follow, Option.bind_some]
  | succ m ih =>
    rw [Nat.succ_add, follow, follow, Option.bind_assoc]
    exact congrArg _ (funext fun u => ih)

theorem follow_succ : follow next (n + 1) t = (follow next n t).bind next := by
  have hone : follow next 1 = next := funext fun u => Option.bind_fun_some (next u)
  rw [follow_add, hone]

theorem isSome_follow_of_le (hle : m ≤ n) (h : (follow next n t).isSome) : (follow next m t).isSome := by
  obtain ⟨d, rfl⟩ := Nat.exists_eq_add_of_le hle
  rw [follow_add] at h
  exact Option.isSome_of_isSome_bind h

theorem endless_iff_forall : Endless next t ↔ ∀ n, (follow next n t).isSome := by
  constructor
  · rintro ⟨f, rfl, hf⟩ n
    have hat : follow next n (f 0) = some (f n) := by
      induction n with
      | zero => rfl
      | succ n ih => rw [follow_succ, ih, Option.bind_some, hf]
    rw [hat]
    rfl
  · intro h
    refine ⟨fun n => (follow next n t).get (h n), rfl, fun n => ?_⟩
    have hstep : follow next (n + 1) t = next ((follow next n t).get (h n)) := by
      obtain ⟨u, hu⟩ := Option.isSome_iff_exists.mp (h n)
      simp only [follow_succ, hu, Option.bind_some, Option.get_some]
    rw [← hstep, Option.some_get]

/-- Among finitely many topics one goes in a circle, if one goes on long enough. -/
theorem endless_iff {bound : Nat} (hbound : ∀ t u, next t = some u → t.index < bound) :
    Endless next t ↔ (follow next (bound + 1) t).isSome := by
  rw [endless_iff_forall]
  refine ⟨fun h => h _, fun h => ?_⟩
  have hsome : ∀ i, i ≤ bound → ∃ u, follow next i t = some u ∧ u.index < bound := by
    intro i hi
    obtain ⟨u, hu⟩ := Option.isSome_iff_exists.mp (isSome_follow_of_le (Nat.le_succ_of_le hi) h)
    have hnext : (follow next (i + 1) t).isSome := isSome_follow_of_le (Nat.succ_le_succ hi) h
    rw [follow_succ, hu, Option.bind_some] at hnext
    obtain ⟨v, hv⟩ := Option.isSome_iff_exists.mp hnext
    exact ⟨u, hu, hbound u v hv⟩
  obtain ⟨i, j, hij, hj, hsame⟩ : ∃ i j, i < j ∧ j ≤ bound ∧ follow next i t = follow next j t := by
    have hcard : (Finset.range bound).card < (Finset.range (bound + 1)).card := by simp
    obtain ⟨i, hi, j, hj, hne, hindex⟩ := Finset.exists_ne_map_eq_of_card_lt_of_maps_to hcard
      (f := fun i => ((follow next i t).getD t).index) (fun i hi => by
        obtain ⟨u, hu, hlt⟩ := hsome i (Nat.lt_succ_iff.mp (Finset.mem_range.mp hi))
        simpa [hu] using hlt)
    obtain ⟨u, hu, -⟩ := hsome i (Nat.lt_succ_iff.mp (Finset.mem_range.mp hi))
    obtain ⟨v, hv, -⟩ := hsome j (Nat.lt_succ_iff.mp (Finset.mem_range.mp hj))
    have heq : follow next i t = follow next j t := by
      simp only [hu, hv, Option.getD_some] at hindex
      rw [hu, hv]
      cases u
      cases v
      exact congrArg _ (congrArg _ hindex)
    rcases Nat.lt_or_gt_of_ne hne with hlt | hlt
    · exact ⟨i, j, hlt, Nat.lt_succ_iff.mp (Finset.mem_range.mp hj), heq⟩
    · exact ⟨j, i, hlt, Nat.lt_succ_iff.mp (Finset.mem_range.mp hi), heq.symm⟩
  -- After the circle one is where one has been before it.
  intro n
  induction n using Nat.strong_induction_on with
  | _ n ih =>
    by_cases hn : n ≤ bound + 1
    · exact isSome_follow_of_le hn h
    · obtain ⟨d, rfl⟩ := Nat.exists_eq_add_of_le (show j ≤ n by omega)
      rw [follow_add, ← hsame, ← follow_add]
      exact ih (i + d) (by omega)

theorem Endless.mono {more : TopicId → Option TopicId} (hmore : ∀ t u, next t = some u → more t = some u)
    (h : Endless next t) : Endless more t := by
  obtain ⟨f, hf, hnext⟩ := h
  exact ⟨f, hf, fun k => hmore _ _ (hnext k)⟩

theorem Endless.exists_next (h : Endless next t) : ∃ u, next t = some u ∧ Endless next u := by
  obtain ⟨f, rfl, hf⟩ := h
  exact ⟨f 1, hf 0, fun k => f (k + 1), rfl, fun k => hf (k + 1)⟩

end Following

/-! ### Topics that start topics -/

/-- The first action of a topic. -/
def Conversation.first? (c : Conversation) (t : TopicId) : Option (Action ListId) :=
  (c.topic? t).bind fun topic => c.action? topic.root 0

/-- The topic of the side lane that the first action of a topic starts without delay. -/
def Conversation.starts? (c : Conversation) (t : TopicId) : Option TopicId :=
  (c.first? t).bind fun a => if 0 < a.delay then none else c.sideTopic? a

theorem Conversation.index_lt_of_starts? {c : Conversation} {t u : TopicId} (h : c.starts? t = some u) :
    t.index < c.topics.length := by
  obtain ⟨a, ha, -⟩ := Option.bind_eq_some_iff.mp h
  obtain ⟨topic, htopic, -⟩ := Option.bind_eq_some_iff.mp ha
  exact (List.getElem?_eq_some_iff.mp htopic).1

namespace Session
variable {c : Conversation} {hosted : List Nat} {s t u : Session} {id : LaneId} {e : Seconds} {l : Lane}
variable {ref : ActionRef} {a : Action ListId} {topic other : TopicId} {parent : Option ActionRef} {n fuel : Nat}

/-- The topic of the side lane that is started by the first pass of a side lane at the start of a topic. -/
def starts? (s : Session) (topic : TopicId) : Option TopicId :=
  (s.conversation.first? topic).bind fun a => if s.mustWait a ∨ 0 < a.delay then none else s.sideTopic? a

theorem starts?_eq_some_iff : s.starts? topic = some other ↔
    ∃ a, s.conversation.first? topic = some a ∧ s.mustWait a = false ∧ ¬0 < a.delay ∧ s.sideTopic? a = some other := by
  simp only [starts?, Option.bind_eq_some_iff]
  refine exists_congr fun a => and_congr_right fun _ => ?_
  split
  · rename_i h
    refine iff_of_false (by simp) fun hstarts => ?_
    rcases h with h | h
    · exact absurd h (by simp [hstarts.1])
    · exact absurd h hstarts.2.1
  · rename_i h
    simp only [not_or, Bool.not_eq_true] at h
    exact ⟨fun hside => ⟨h.1, h.2, hside⟩, fun hstarts => hstarts.2.2⟩

theorem conversation_starts? (h : s.starts? topic = some other) : s.conversation.starts? topic = some other := by
  obtain ⟨a, ha, -, hdue, hside⟩ := starts?_eq_some_iff.mp h
  obtain ⟨chance, file, name, -, hkind, hfind⟩ := sideTopic?_eq_some hside
  rw [Conversation.starts?, ha, Option.bind_some, if_neg hdue, Conversation.sideTopic?, hkind]
  exact hfind

theorem Alike.starts? (h : Alike s t) : t.starts? = s.starts? := by
  funext topic
  simp only [Session.starts?, h.conversation, h.mustWait, h.sideTopic?]

theorem Alike.addLane : Alike s (s.addLane l) := ⟨rfl, rfl, rfl, rfl⟩

/-! ### Passes that do not end -/

theorem opened_topicLane (hbegun : s.begun id = s) (hl : s.lane? id = some (s.topicLane topic parent)) :
    s.opened id = s := by
  have hsound : (s.topicLane topic parent).cursors.findIdx? s.isBroken = none := by
    refine List.findIdx?_eq_none_iff.mpr fun cur hcur => ?_
    have hloops : cur.looping = false := (isFresh_topicLane topic parent).2 cur hcur
    rw [isBroken, hloops, Bool.false_and]
  rw [opened, hbegun, endBrokenLoop_of_none hl hsound]

theorem action?_topicLane (parent : Option ActionRef) :
    (∃ ref, (s.topicLane topic parent).action? = some ref ∧ s.action? ref = some a) ↔
      s.conversation.first? topic = some a := by
  cases htopic : s.conversation.topic? topic with
  | none => simp [topicLane, topicCursor?, Conversation.first?, htopic, Lane.action?, Lane.top?]
  | some found =>
    have hnext : (s.topicLane topic parent).action? =
        if 0 < (s.conversation.list found.root).length then some ⟨.script found.root, 0⟩ else none := by
      rw [topicLane, topicCursor?, htopic]
      rfl
    have hfirst : s.conversation.first? topic = s.action? ⟨.script found.root, 0⟩ := by
      rw [Conversation.first?, htopic]
      rfl
    rw [hnext, hfirst]
    constructor
    · rintro ⟨ref, href, ha⟩
      split at href
      · cases href
        exact ha
      · cases href
    · intro ha
      have hlength : 0 < (s.conversation.list found.root).length := (List.getElem?_eq_some_iff.mp ha).1
      exact ⟨_, if_pos hlength, ha⟩

theorem cursors_topicLane_ne_nil (h : s.conversation.starts? topic = some other) :
    (s.topicLane topic parent).cursors ≠ [] := by
  obtain ⟨a, ha, -⟩ := Option.bind_eq_some_iff.mp h
  obtain ⟨found, hfound, -⟩ := Option.bind_eq_some_iff.mp ha
  simp [topicLane, topicCursor?, hfound]

theorem starts_iff (hbegun : s.begun id = s) (hl : s.lane? id = some (s.topicLane topic parent)) :
    (∃ l ref a, s.Carries id 0 l ref a ∧ s.sideTopic? a = some other) ↔ s.starts? topic = some other := by
  have hopened := opened_topicLane hbegun hl
  have hzero : (0 : Seconds) + 0 = 0 := rfl
  have htime : (s.topicLane topic parent).time + 0 = 0 := hzero
  rw [starts?_eq_some_iff]
  constructor
  · rintro ⟨l, ref, a, hcarries, hside⟩
    obtain ⟨hlane, hnext, ha, hgate, hdue⟩ := hcarries
    rw [hopened] at hlane ha hgate
    obtain rfl := Option.some.inj (hl.symm.trans hlane)
    exact ⟨a, (action?_topicLane parent).mp ⟨ref, hnext, ha⟩, hgate, htime ▸ hdue, hside⟩
  · rintro ⟨a, hfirst, hgate, hdue, hside⟩
    obtain ⟨ref, hnext, ha⟩ := (action?_topicLane parent).mpr hfirst
    refine ⟨_, ref, a, ⟨?_, hnext, ?_, ?_, ?_⟩, hside⟩
    · rwa [hopened]
    · rwa [hopened]
    · rwa [hopened]
    · rwa [htime]

theorem Alike.started : Alike s (s.started id e l ref a topic) := Alike.carried.trans .addLane

/-- The first pass of a lane at the start of a topic lasts as long as there are further topics to start. -/
theorem passWithin_topicLane (hs : s.Numbered) (hl : s.lane? (.side n) = some (s.topicLane topic parent)) :
    s.passWithin fuel (.side n) 0 = none ↔ (follow s.starts? fuel topic).isSome := by
  -- Each pass is within the one before it, on a lane that is at the start of the next topic.
  induction fuel generalizing s n topic parent with
  | zero => simp [passWithin, follow]
  | succ fuel ih =>
    have hbegun : s.begun (.side n) = s := begun_side n
    cases hstarts : s.starts? topic with
    | none =>
      have hquiet : ∀ l ref a, s.Carries (.side n) 0 l ref a → s.sideTopic? a = none := fun l ref a h =>
        Option.eq_none_iff_forall_ne_some.mpr fun other hother => by
          rw [(starts_iff hbegun hl).mp ⟨l, ref, a, h, hother⟩] at hstarts
          cases hstarts
      obtain ⟨t, hrun, -⟩ := passWithin_of_quiet hquiet
      simp [hrun, follow, hstarts]
    | some other =>
      obtain ⟨l, ref, a, h, hother⟩ := (starts_iff hbegun hl).mpr hstarts
      obtain ⟨hnum, hlane⟩ := started_topicLane hs h other
      rw [passWithin_of_starts h hother, Option.map_eq_none_iff, ih hnum hlane, Alike.started.starts?, follow, hstarts,
        Option.bind_some]

theorem passWithin_started (hs : s.Numbered) (h : s.Carries id e l ref a) (htopic : s.sideTopic? a = some topic) :
    s.passWithin (fuel + 1) id e = none ↔ (follow s.starts? fuel topic).isSome := by
  obtain ⟨hnum, hlane⟩ := started_topicLane hs h topic
  rw [passWithin_of_starts h htopic, Option.map_eq_none_iff, passWithin_topicLane hnum hlane, Alike.started.starts?]

/-- A pass in which an action starts a lane, and then lanes start further ones for ever. -/
def Spins (s : Session) (id : LaneId) (e : Seconds) : Prop :=
  ∃ l ref a topic, s.Carries id e l ref a ∧ s.sideTopic? a = some topic ∧ Endless s.starts? topic

/-- If there may be more passes within each other than there are topics, no other passes run out of them. -/
theorem passWithin_eq_none_iff (hs : s.Numbered) {bound : Nat} (hbound : s.conversation.topics.length ≤ bound) :
    s.passWithin (bound + 2) id e = none ↔ s.Spins id e := by
  have hendless : ∀ topic, Endless s.starts? topic ↔ (follow s.starts? (bound + 1) topic).isSome := fun topic =>
    endless_iff fun t u h => Nat.lt_of_lt_of_le (Conversation.index_lt_of_starts? (conversation_starts? h)) hbound
  constructor
  · intro hnone
    rcases s.quiet_or_starts id e with hquiet | ⟨l, ref, a, topic, hc, htopic⟩
    · obtain ⟨t, hrun, -⟩ := passWithin_of_quiet hquiet
      rw [hrun] at hnone
      cases hnone
    · exact ⟨l, ref, a, topic, hc, htopic, (hendless topic).mpr ((passWithin_started hs hc htopic).mp hnone)⟩
  · rintro ⟨l, ref, a, topic, hc, htopic, hspins⟩
    exact (passWithin_started hs hc htopic).mpr ((hendless topic).mp hspins)

theorem pass_eq_none_iff (hs : s.Numbered) : s.pass id e = none ↔ s.Spins id e :=
  passWithin_eq_none_iff hs (Nat.le_refl _)

/-- A pass that does not return has no result for any number of passes within each other. -/
theorem spins_iff_forall (hs : s.Numbered) : s.Spins id e ↔ ∀ fuel, s.passWithin fuel id e = none := by
  refine ⟨?_, fun h => (pass_eq_none_iff hs).mp (h _)⟩
  rintro ⟨l, ref, a, topic, hc, htopic, hspins⟩ fuel
  cases fuel with
  | zero => rfl
  | succ fuel => exact (passWithin_started hs hc htopic).mpr (endless_iff_forall.mp hspins fuel)

theorem passWithin_succ_of_some (h : s.passWithin fuel id e = some t) : s.passWithin (fuel + 1) id e = some t := by
  induction fuel generalizing s id e t with
  | zero => cases h
  | succ fuel ih =>
    rcases s.quiet_or_starts id e with hquiet | ⟨l, ref, a, topic, hc, htopic⟩
    · obtain ⟨t', hrun, -⟩ := passWithin_of_quiet hquiet
      rw [hrun] at h ⊢
      exact h
    · rw [passWithin_of_starts hc htopic] at h ⊢
      obtain ⟨u, hu, rfl⟩ := Option.map_eq_some_iff.mp h
      rw [ih hu]
      rfl

/-- A pass returns if it is a chain of passes, which has an end. -/
theorem pass_eq_some_iff (hs : s.Numbered) :
    s.pass id e = some t ↔ ∃ visits, Chain s id e visits t := by
  refine ⟨Chain.of_passWithin, ?_⟩
  rintro ⟨visits, h⟩
  induction h with
  | alone _ h => exact h
  | @starts s u id e l ref a topic visits hc htopic _ ih =>
    obtain ⟨hnum, -⟩ := started_topicLane hs hc topic
    have hnested : (s.started id e l ref a topic).passWithin s.patience (.side s.nextSide) 0 = some u := by
      have hsame : (s.started id e l ref a topic).patience = s.patience := by
        rw [patience, patience, Alike.started.conversation]
      exact hsame ▸ ih hnum
    have hlong : s.passWithin (s.patience + 1) id e = some ((u.advance id).changeLane id Lane.prime) := by
      rw [passWithin_of_starts hc htopic, hnested]
      rfl
    cases hpass : s.pass id e with
    | none =>
      rw [(spins_iff_forall hs).mp ((pass_eq_none_iff hs).mp hpass)] at hlong
      cases hlong
    | some t => exact (passWithin_succ_of_some hpass).symm.trans hlong

/-! ### Frames that do not end -/

theorem foldlM_eq_none_iff {ids : List LaneId} (hs : s.Numbered) :
    ids.foldlM (fun s id => s.pass id e) s = none ↔
      ∃ before id after visits u, ids = before ++ id :: after ∧ Rounds e s before visits u ∧ u.Spins id e := by
  induction ids generalizing s with
  | nil => simp
  | cons id ids ih =>
    rw [List.foldlM_cons, Option.bind_eq_bind]
    cases hpass : s.pass id e with
    | none =>
      refine iff_of_true rfl ⟨[], id, ids, [], s, rfl, .nil, (pass_eq_none_iff hs).mp hpass⟩
    | some t =>
      obtain ⟨visits, hchain⟩ := (pass_eq_some_iff hs).mp hpass
      obtain ⟨-, acting, hconfined, -⟩ := hchain.confined hs
      rw [Option.bind_some, ih (hconfined.numbered hs)]
      constructor
      · rintro ⟨before, other, after, visits', u, rfl, hrounds, hspins⟩
        exact ⟨id :: before, other, after, _, u, rfl, .cons hchain hrounds, hspins⟩
      · rintro ⟨before, other, after, visits', u, heq, hrounds, hspins⟩
        cases hrounds with
        | nil =>
          obtain ⟨rfl, rfl⟩ := List.cons.inj heq
          rw [(pass_eq_none_iff hs).mpr hspins] at hpass
          cases hpass
        | @cons _ t' _ id' before' _ _ hchain' hrest =>
          obtain ⟨rfl, rfl⟩ := List.cons.inj heq
          obtain rfl : t' = t := Option.some.inj (((pass_eq_some_iff hs).mpr ⟨_, hchain'⟩).symm.trans hpass)
          exact ⟨before', other, after, _, u, rfl, hrest, hspins⟩

theorem update_eq_none_iff (hs : s.Numbered) :
    s.update e = none ↔ s.Plays ∧ ∃ before id after visits u,
      s.order = before ++ id :: after ∧ Rounds e (s.aged e) before visits u ∧ u.Spins id e := by
  rw [update_eq, Option.map_eq_none_iff]
  split
  · rename_i hplays
    have haged : (s.aged e).Numbered := hs
    rw [passes_eq, foldlM_eq_none_iff haged]
    exact (and_iff_right hplays).symm
  · rename_i hplays
    exact iff_of_false (by simp) fun h => hplays h.1

/-- In a session that is at rest, nothing has to be waited for. -/
structure AtRest (s : Session) : Prop where
  scripted : ∃ chance, s.interpreter = .scripted chance
  slots : ∀ speech ∈ s.slots, speech.isDone = true
  actors : ∀ actor ∈ s.world.actors, actor.waiting = false

theorem AtRest.mustWait (h : s.AtRest) : s.mustWait a = false := by
  have hbusy : s.isBusy a.speechOnly = fun _ => false := by
    funext index
    have hslot : s.slots[index]?.any (fun speech => !speech.isDone) = false := by
      rw [Option.any_eq_false]
      intro speech hspeech
      rw [h.slots speech (List.mem_of_getElem? hspeech)]
      rfl
    have hactor : s.world.actors[index]?.any (·.waiting) = false := by
      rw [Option.any_eq_false]
      intro actor hactor
      rw [h.actors actor (List.mem_of_getElem? hactor)]
    rw [isBusy, hslot, hactor, Bool.and_false, Bool.or_false]
  simp only [Session.mustWait, hbusy]
  split <;> simp

theorem AtRest.starts? (h : s.AtRest) : s.starts? = s.conversation.starts? := by
  obtain ⟨chance, hinterpreter⟩ := h.scripted
  funext topic
  simp only [Session.starts?, Conversation.starts?, h.mustWait, Session.sideTopic?, hinterpreter, Bool.false_eq_true,
    false_or]

/-! ### Starting with a topic -/

theorem AtRest.spins (h : s.AtRest) (hbegun : s.begun id = s) (hl : s.lane? id = some (s.topicLane topic parent))
    (hendless : Endless s.conversation.starts? topic) : s.Spins id 0 := by
  rw [← h.starts?] at hendless
  obtain ⟨other, hother, hrest⟩ := hendless.exists_next
  obtain ⟨l, ref, a, hcarries, hside⟩ := (starts_iff hbegun hl).mpr hother
  exact ⟨l, ref, a, other, hcarries, hside, hrest⟩

theorem atRest_start (chance : Chance) (options : Options) : (start c (.scripted chance) options).AtRest := by
  refine ⟨⟨chance, rfl⟩, fun speech hspeech => ?_, fun actor hactor => ?_⟩
  · obtain ⟨profile, -, rfl⟩ := List.mem_map.mp hspeech
    rfl
  · obtain ⟨profile, -, rfl⟩ := List.mem_map.mp hactor
    rfl

/-- Of any conversation, any topic can be played from its start. -/
theorem exists_playing (c : Conversation) (topic : TopicId) :
    ∃ s, Arises c [] s ∧ s.Plays ∧ (s.aged 0).AtRest ∧ s.sides = [] ∧ s.main = s.topicLane topic none := by
  let s₀ : Session := start c (.scripted .zeros) {}
  let s : Session := { s₀.setTopic (some topic) with running := true }
  have hset : s₀.step (.setTopic (some topic)) = some (s₀.setTopic (some topic), .done) := rfl
  have hrun : (s₀.setTopic (some topic)).step (.setRunning true) = some (s, .done) := rfl
  have harises : Arises c [] s := .step (.step (.start _ _) (by simp) hset) (by simp) hrun
  refine ⟨s, harises, ⟨rfl, rfl, rfl⟩, ⟨⟨_, rfl⟩, fun speech hspeech => ?_, fun actor hactor => ?_⟩, rfl, ?_⟩
  · -- All slots are those of silent actors, before and after they are brought to the number of the actors.
    have hsilent : ∀ speech ∈ s.syncSlots.slots, speech = {} := by
      intro speech hspeech
      rcases List.mem_append.mp hspeech with hold | hnew
      · obtain ⟨_, -, rfl⟩ := List.mem_map.mp (List.mem_of_mem_take hold)
        rfl
      · exact List.eq_of_mem_replicate hnew
    obtain ⟨before, hbefore, rfl⟩ := List.mem_map.mp hspeech
    rw [hsilent before hbefore]
    rfl
  · obtain ⟨profile, -, rfl⟩ := List.mem_map.mp hactor
    rfl
  · show ({ cursors := (s.topicCursor? topic).toList } : Lane) = s.topicLane topic none
    rw [topicLane, topicCursor?]
    cases s.conversation.topic? topic <;> rfl

/-- When playing goes on. A frame does not return if and only if time passes on the lanes and, after the passes of some
    lanes, the pass of the next lane starts side lanes for ever; the same holds of a side lane that a host adds. So all
    frames of all sessions of a conversation return, and all side lanes can be added, if and only if from no topic on
    topics start each other for ever by their first actions. -/
theorem update_returns (c : Conversation) :
    (∀ hosted s e, Arises c hosted s →
      (s.update e = none ↔ s.Plays ∧ ∃ before id after visits u,
        s.order = before ++ id :: after ∧ Rounds e (s.aged e) before visits u ∧ u.Spins id e)) ∧
    (∀ hosted s l, Arises c hosted s → (s.addSide l = none ↔ (s.addLane l).Spins (.side s.nextSide) 0)) ∧
    ((∀ hosted s e, Arises c hosted s → (s.update e).isSome) ↔ ∀ topic, ¬Endless c.starts? topic) ∧
    ((∀ hosted s l, Arises c hosted s → (s.addSide l).isSome) ↔ ∀ topic, ¬Endless c.starts? topic) := by
  have hupdate : ∀ hosted s e, Arises c hosted s →
      (s.update e = none ↔ s.Plays ∧ ∃ before id after visits u,
        s.order = before ++ id :: after ∧ Rounds e (s.aged e) before visits u ∧ u.Spins id e) :=
    fun hosted s e hs => update_eq_none_iff hs.regular.numbered
  have hadd : ∀ hosted s l, Arises c hosted s →
      (s.addSide l = none ↔ (s.addLane l).Spins (.side s.nextSide) 0) := fun hosted s l hs =>
    pass_eq_none_iff ((Effect.addLane hs.regular.numbered l).numbered hs.regular.numbered)
  have hendless_of_spins : ∀ {s : Session} {id e}, s.conversation = c → s.Spins id e →
      ∃ topic, Endless c.starts? topic := by
    rintro s id e rfl ⟨l, ref, a, topic, -, -, hendless⟩
    exact ⟨topic, hendless.mono fun _ _ => conversation_starts?⟩
  refine ⟨hupdate, hadd, ⟨fun h topic hendless => ?_, fun h hosted s e hs => ?_⟩,
    ⟨fun h topic hendless => ?_, fun h hosted s l hs => ?_⟩⟩
  · obtain ⟨s, hs, hplays, hrest, hsides, hmain⟩ := exists_playing c topic
    have hsame : s.conversation.starts? = c.starts? := by rw [hs.regular.conversation]
    have hspins : (s.aged 0).Spins .main 0 := by
      refine hrest.spins (if_neg ?_) (congrArg some hmain) (hsame ▸ hendless : Endless s.conversation.starts? topic)
      rintro ⟨-, hempty⟩
      obtain ⟨other, hother, -⟩ := hendless.exists_next
      exact cursors_topicLane_ne_nil (hsame ▸ hother) (List.isEmpty_iff.mp (hmain ▸ hempty))
    have hnone := (hupdate [] s 0 hs).mpr ⟨hplays, [], .main, [], [], _, by simp [order, numbers, hsides], .nil, hspins⟩
    have hsome := h [] s 0 hs
    rw [hnone] at hsome
    cases hsome
  · refine Option.ne_none_iff_isSome.mp fun hnone => ?_
    obtain ⟨-, before, id, after, visits, u, -, hrounds, hspins⟩ := (hupdate hosted s e hs).mp hnone
    have haged := hs.regular.touches (aged_touches s e .main)
    have hregular : Regular c hosted u := haged.stretches (hrounds.stretches haged.numbered)
    obtain ⟨topic, hendless⟩ := hendless_of_spins hregular.conversation hspins
    exact h topic hendless
  · let s : Session := start c (.scripted .zeros) {}
    have hs : Arises c [] s := .start _ _
    have hrest : s.AtRest := atRest_start _ _
    have hspins : (s.addLane (s.topicLane topic none)).Spins (.side s.nextSide) 0 :=
      AtRest.spins ⟨hrest.1, hrest.2, hrest.3⟩ (begun_side _) (lane?_addLane hs.regular.numbered) hendless
    have hnone := (hadd [] s _ hs).mpr hspins
    have hsome := h [] s (s.topicLane topic none) hs
    rw [hnone] at hsome
    cases hsome
  · refine Option.ne_none_iff_isSome.mp fun hnone => ?_
    have hspins : (s.addLane l).Spins (.side s.nextSide) 0 := (hadd hosted s l hs).mp hnone
    obtain ⟨topic, hendless⟩ := hendless_of_spins (s := s.addLane l) hs.regular.conversation hspins
    exact h topic hendless

end Session

/-- A topic that starts itself on a side lane. -/
def Document.echo : Document where
  profiles := []
  values := .empty
  gameCommands := .empty
  files := [{ id := "tale", topics := [{ id := "echo", block := ⟨[{ kind := .cue (.snippet none "echo" true) }]⟩ }] }]

theorem played_echo : ∃ c, Document.echo.load = .ok c ∧
    ((Session.start c (.scripted .zeros) {}).steps [.setTopic (some ⟨0⟩), .setRunning true]).any fun s =>
      decide s.Plays && (s.update 1).isNone :=
  ⟨_, rfl, by decide +kernel⟩

/-- The document is loaded, but a frame of it does not return. -/
theorem update_endless_echo :
    ∃ c s, Document.echo.load = .ok c ∧ Session.Arises c [] s ∧ s.Plays ∧ s.update 1 = none := by
  obtain ⟨c, s, hc, harises, hplayed⟩ := Session.exists_arises (by simp) played_echo
  obtain ⟨hplays, hnone⟩ := Bool.and_eq_true_iff.mp hplayed
  exact ⟨c, s, hc, harises, of_decide_eq_true hplays, Option.isNone_iff_eq_none.mp hnone⟩

theorem update_returns_echo :
    ∃ c s, Document.echo.load = .ok c ∧ Session.Arises c [] s ∧
      (∃ before id after visits u, s.order = before ++ id :: after ∧ Session.Rounds 1 (s.aged 1) before visits u ∧
        u.Spins id 1) ∧
      ¬∀ topic, ¬Endless c.starts? topic := by
  obtain ⟨c, s, hc, harises, hplayed⟩ := Session.exists_arises (by simp) played_echo
  have hnone : s.update 1 = none := Option.isNone_iff_eq_none.mp (Bool.and_eq_true_iff.mp hplayed).2
  obtain ⟨hupdate, -, hall, -⟩ := Session.update_returns c
  refine ⟨c, s, hc, harises, ((hupdate [] s 1 harises).mp hnone).2, fun hfree => ?_⟩
  have hsome := hall.mpr hfree [] s 1 harises
  rw [hnone] at hsome
  cases hsome

end Dialogue
