import Dialogue.Proofs.Deeds

/-! Passes as chains. An action starts one side lane at most, and the first pass of that lane is all that happens before
    its own lane goes on. So a pass is a chain of passes, each of which starts the lane of the next one (`Chain`), and
    a frame is a round of such chains (`Rounds`). -/

namespace Dialogue

/-- Whether a cue changes the world, or what is said in it. -/
def Cue.isStaged : Cue → Bool
  | .speak _ _ _ _ | .setVariable _ _ | .setParameter _ _ _ | .trigger _ _ | .addActor _ _ | .removeActor _ => true
  | _ => false

namespace Session
variable {s t u : Session} {id other : LaneId} {e : Seconds} {l : Lane} {ref : ActionRef} {a : Action ListId}
variable {topic : TopicId}

/-! ### One pass -/

/-- The session when the main lane has started, if it has its pass. -/
def begun (s : Session) (id : LaneId) : Session := if id = .main ∧ s.main.cursors.isEmpty then s.advance .main else s

/-- The session when a pass looks for the next action of its lane. -/
def opened (s : Session) (id : LaneId) : Session := (s.begun id).endBrokenLoop id

/-- A pass on the lane `id` after some time carries out an action, which is next on the lane `l` by then. -/
structure Carries (s : Session) (id : LaneId) (elapsed : Seconds) (l : Lane) (ref : ActionRef) (a : Action ListId) :
    Prop where
  lane : (s.opened id).lane? id = some l
  next : l.action? = some ref
  action : (s.opened id).action? ref = some a
  gate : (l.waiting && (s.opened id).mustWait a) = false
  due : ¬l.time + elapsed < a.delay

/-- What a pass carries out, if anything. -/
def carrying? (s : Session) (id : LaneId) (elapsed : Seconds) : Option (Lane × ActionRef × Action ListId) := do
  let l ← (s.opened id).lane? id
  let ref ← l.action?
  let a ← (s.opened id).action? ref
  if (l.waiting && (s.opened id).mustWait a) = false ∧ ¬l.time + elapsed < a.delay then some (l, ref, a) else none

theorem carries_iff : s.Carries id e l ref a ↔ s.carrying? id e = some (l, ref, a) := by
  simp only [carrying?, Option.bind_eq_bind, Option.bind_eq_some_iff, Option.ite_none_right_eq_some, Option.some.injEq,
    Prod.mk.injEq]
  constructor
  · rintro ⟨hlane, hnext, ha, hgate, hdue⟩
    exact ⟨l, hlane, ref, hnext, a, ha, ⟨hgate, hdue⟩, rfl, rfl, rfl⟩
  · rintro ⟨l, hlane, ref, hnext, a, ha, ⟨hgate, hdue⟩, rfl, rfl, rfl⟩
    exact ⟨hlane, hnext, ha, hgate, hdue⟩

/-- The session when the action has been noted. -/
def carried (s : Session) (id : LaneId) (elapsed : Seconds) (l : Lane) (ref : ActionRef) (a : Action ListId) : Session :=
  ((s.opened id).changeLane id fun k => { k with waiting := false, time := l.time + elapsed }).note id ref a
    (some { topic := l.topic?, action := ref })

/-- The session when the action has added a side lane at the start of a topic. -/
def started (s : Session) (id : LaneId) (elapsed : Seconds) (l : Lane) (ref : ActionRef) (a : Action ListId)
    (topic : TopicId) : Session :=
  (s.carried id elapsed l ref a).addLane ((s.carried id elapsed l ref a).topicLane topic (some ref))

theorem passWithin_succ (fuel : Nat) :
    s.passWithin (fuel + 1) id e =
      match (s.opened id).lane? id with
      | none => some (s.opened id)
      | some l =>
        match l.action? with
        | some ref =>
          match (s.opened id).action? ref with
          | none => some (s.opened id)
          | some a => (s.opened id).attempt (addPlaying (passWithin fuel)) id l ref a e
        | none =>
          if l.top?.any (·.looping) then some (s.opened id)
          else if 1 < l.depth then some ((s.opened id).advance id)
          else some ((s.opened id).finish id) := rfl

theorem passWithin_of_carries (h : s.Carries id e l ref a) (fuel : Nat) :
    s.passWithin (fuel + 1) id e =
      ((s.carried id e l ref a).execute (addPlaying (passWithin fuel)) id ref a).map (·.changeLane id Lane.prime) := by
  rw [passWithin_succ]
  simp only [h.lane, h.next, h.action, attempt, h.gate, h.due, Bool.false_eq_true, ↓reduceIte]
  rw [carried, note]
  exact Option.bind_eq_bind ▸ Option.map_eq_bind.symm

theorem begun_side (n : Nat) : s.begun (.side n) = s := by simp [begun]

theorem endBrokenLoop_of_none (hl : s.lane? id = some l) (hnone : l.cursors.findIdx? s.isBroken = none) :
    s.endBrokenLoop id = s := by
  rw [endBrokenLoop, hl, Option.bind_some, hnone]

theorem begun_touches (s : Session) (id : LaneId) : Touches id s (s.begun id) := by
  unfold begun
  split
  · rename_i hmain
    exact hmain.1 ▸ .advance
  · exact .refl id s

theorem opened_touches (s : Session) (id : LaneId) : Touches id s (s.opened id) := by
  refine (begun_touches s id).trans ?_
  unfold opened endBrokenLoop
  split
  · exact .refl id _
  · rename_i d hd
    refine Touches.trans (.change fun l hl => .ended ?_) (.record rfl nofun nofun)
    rw [hl] at hd
    exact (List.findIdx?_eq_some_iff_getElem.mp hd).1

/-- What a pass comes to that carries out nothing. -/
inductive Idles (s : Session) (id : LaneId) (e : Seconds) : Session → Prop where
  /-- The next action has to wait for actors, or there is none and the lane keeps looping. -/
  | still (h : ∀ l, (s.opened id).lane? id = some l →
      (∃ ref, l.action? = some ref ∧ ∀ a, (s.opened id).action? ref = some a → l.waiting = true) ∨
        l.action? = none ∧ l.top?.any (·.looping)) : Idles s id e (s.opened id)
  /-- The next action does not wait for actors any more, but its time has not come. -/
  | timed {l : Lane} {ref : ActionRef} {a : Action ListId} (hlane : (s.opened id).lane? id = some l)
      (hnext : l.action? = some ref) (ha : (s.opened id).action? ref = some a)
      (hgate : (l.waiting && (s.opened id).mustWait a) = false) (hearly : l.time + e < a.delay) :
      Idles s id e ((s.opened id).changeLane id fun k => { k with waiting := false, time := l.time + e })
  /-- The innermost list is at its end. -/
  | leaves {l : Lane} (hlane : (s.opened id).lane? id = some l) (hend : l.action? = none) (hdeep : 1 < l.depth) :
      Idles s id e ((s.opened id).advance id)
  /-- The outermost list is at its end. -/
  | finishes {l : Lane} (hlane : (s.opened id).lane? id = some l) (hend : l.action? = none) (hflat : l.depth ≤ 1)
      (hstraight : l.top?.any (·.looping) = false) : Idles s id e ((s.opened id).finish id)

theorem passWithin_of_idle (h : ∀ l ref a, ¬s.Carries id e l ref a) :
    ∃ t, (∀ fuel, s.passWithin (fuel + 1) id e = some t) ∧ s.Idles id e t := by
  simp only [passWithin_succ]
  cases hlane : (s.opened id).lane? id with
  | none => exact ⟨_, fun _ => rfl, .still fun l hl => nomatch hlane.symm.trans hl⟩
  | some l =>
    have hstill : ((∃ ref, l.action? = some ref ∧ ∀ a, (s.opened id).action? ref = some a → l.waiting = true) ∨
        l.action? = none ∧ l.top?.any (·.looping)) → s.Idles id e (s.opened id) := fun hwait =>
      .still fun k hk => Option.some.inj (hlane.symm.trans hk) ▸ hwait
    cases hnext : l.action? with
    | some ref =>
      cases ha : (s.opened id).action? ref with
      | none => exact ⟨_, fun _ => by simp only [hnext, ha], hstill (.inl ⟨ref, hnext, by simp [ha]⟩)⟩
      | some a =>
        simp only [hnext, ha, attempt]
        cases hgate : l.waiting && (s.opened id).mustWait a with
        | true => exact ⟨_, fun _ => rfl, hstill (.inl ⟨ref, hnext, fun _ _ => (Bool.and_eq_true_iff.mp hgate).1⟩)⟩
        | false =>
          by_cases hearly : l.time + e < a.delay
          · simp only [Bool.false_eq_true, ↓reduceIte, hearly]
            exact ⟨_, fun _ => rfl, .timed hlane hnext ha hgate hearly⟩
          · exact absurd ⟨hlane, hnext, ha, hgate, hearly⟩ (h l ref a)
    | none =>
      simp only [hnext]
      cases hloops : l.top?.any (·.looping) with
      | true => exact ⟨_, fun _ => rfl, hstill (.inr ⟨hnext, hloops⟩)⟩
      | false =>
        simp only [Bool.false_eq_true, ↓reduceIte]
        split
        · rename_i hdeep
          exact ⟨_, fun _ => rfl, .leaves hlane hnext hdeep⟩
        · rename_i hflat
          exact ⟨_, fun _ => rfl, .finishes hlane hnext (Nat.le_of_not_lt hflat) hloops⟩

/-- A pass that carries out nothing touches its lane only, or removes it, or ends playback. -/
theorem Idles.touches (h : s.Idles id e t) :
    Touches id s t ∨ (∃ n u, id = .side n ∧ Touches id s u ∧ t = u.removeLane n) ∨
      id = .main ∧ t = { s.opened id with running := false }.record .ended := by
  have hopened := opened_touches s id
  cases h with
  | still => exact .inl hopened
  | timed => exact .inl (hopened.trans (.change fun k _ => .timed k _))
  | leaves => exact .inl hopened.goOn
  | finishes =>
    cases id with
    | main =>
      by_cases hsilent : (s.opened .main).allSilent
      · exact .inr (.inr ⟨rfl, if_pos hsilent⟩)
      · have hsame : (s.opened .main).finish .main = s.opened .main := if_neg hsilent
        exact .inl (hsame.symm ▸ hopened)
    | side n => exact .inr (.inl ⟨n, _, rfl, hopened, rfl⟩)

/-! ### What an action can start -/

/-- What decides whether actions are carried out, and which lanes they start, is the same. -/
structure Alike (s t : Session) : Prop where
  conversation : t.conversation = s.conversation
  interpreter : t.interpreter = s.interpreter
  world : t.world = s.world
  slots : t.slots = s.slots

namespace Alike

theorem trans (h : Alike s t) (h' : Alike t u) : Alike s u :=
  ⟨h'.conversation.trans h.conversation, h'.interpreter.trans h.interpreter, h'.world.trans h.world,
    h'.slots.trans h.slots⟩

theorem changeLane {f : Lane → Lane} : Alike s (s.changeLane id f) := by cases id <;> exact ⟨rfl, rfl, rfl, rfl⟩

theorem enter {cur : Cursor} : Alike s (s.enter id cur) :=
  (⟨rfl, rfl, rfl, rfl⟩ : Alike s (s.record (.entered id cur.list))).trans changeLane

theorem advance : Alike s (s.advance id) := by
  unfold Session.advance
  split
  · split
    · exact ⟨rfl, rfl, rfl, rfl⟩
    · split
      · exact changeLane
      · simp only
        split
        · exact changeLane.trans ⟨rfl, rfl, rfl, rfl⟩
        · exact changeLane
  · exact ⟨rfl, rfl, rfl, rfl⟩

theorem goOn (h : Alike s t) : Alike s (t.advance id) := h.trans advance

theorem announce (info : String) : Alike s (s.announce id info) := by
  unfold Session.announce
  split
  · exact advance
  · exact ⟨rfl, rfl, rfl, rfl⟩

theorem ask (answers : List (Answer ListId)) (meanwhile : ListId) : Alike s (s.ask id ref answers meanwhile) := by
  have henter : Alike s (s.enter id { s.cursor (.script meanwhile) with parent := some ref, looping := true }) := enter
  rcases ask_cases s id ref answers meanwhile with ⟨-, hnone⟩ | ⟨k, -, -, -, -, hsome⟩
  · rw [hnone]
    exact goOn (henter.trans ⟨rfl, rfl, rfl, rfl⟩)
  · rw [hsome]
    exact henter.trans ⟨rfl, rfl, rfl, rfl⟩

theorem begun : Alike s (s.begun id) := by
  unfold Session.begun
  split
  · exact advance
  · exact ⟨rfl, rfl, rfl, rfl⟩

theorem opened : Alike s (s.opened id) := by
  have hbegun : Alike s (s.begun id) := begun
  refine hbegun.trans ?_
  unfold Session.opened endBrokenLoop
  split
  · exact ⟨rfl, rfl, rfl, rfl⟩
  · exact changeLane.trans ⟨rfl, rfl, rfl, rfl⟩

theorem carried : Alike s (s.carried id e l ref a) := opened.trans (changeLane.trans ⟨rfl, rfl, rfl, rfl⟩)

theorem sideTopic? (h : Alike s t) : t.sideTopic? = s.sideTopic? := by
  funext a
  simp only [Session.sideTopic?, h.conversation, h.interpreter]

theorem mustWait (h : Alike s t) : t.mustWait = s.mustWait := by
  funext a
  have hbusy : t.isBusy = s.isBusy := by
    funext speechOnly index
    simp only [isBusy, h.slots, h.world]
  simp only [Session.mustWait, h.slots, h.world, hbusy]

end Alike

section Acting
variable {start : Session → Lane → Option Session} {chance : Chance}

theorem perform_alike {cue : Cue} (hchance : s.interpreter = .scripted chance) (hplain : s.sideTopic? a = none)
    (hkind : a.kind = .cue cue) (hcue : cue.isStaged = false) (h : s.perform start chance id ref cue = some t) :
    Alike s t := by
  cases cue with
  | speak | setVariable | setParameter | trigger | addActor | removeActor => cases hcue
  | cameraShot name duration =>
    cases h
    exact .goOn ⟨rfl, rfl, rfl, rfl⟩
  | snippet file topic sideLane =>
    cases hfound : s.conversation.findTopic? file topic with
    | none =>
      simp only [perform, hfound, Option.some.injEq] at h
      exact h ▸ .advance
    | some found =>
      cases sideLane with
      | true =>
        have hstarts : s.sideTopic? a = some found := by
          simp only [sideTopic?, Conversation.sideTopic?, hchance, hkind, hfound]
        cases hstarts.symm.trans hplain
      | false =>
        simp only [perform, hfound, Bool.false_eq_true, ↓reduceIte] at h
        split at h <;> cases h
        · exact ⟨rfl, rfl, rfl, rfl⟩
        · exact .enter
  | stopConversation =>
    cases h
    exact Alike.changeLane.trans ⟨rfl, rfl, rfl, rfl⟩
  | stopTopic =>
    cases h
    exact Alike.changeLane.goOn
  | actorCommand | gameCommand =>
    cases h
    exact .announce _
  | comment text =>
    cases h
    exact .advance

/-- An action that does nothing to the stage leaves it as it is. -/
theorem execute_alike (hchance : s.interpreter = .scripted chance) (hplain : s.sideTopic? a = none)
    (hcue : ∀ cue, a.kind = .cue cue → cue.isStaged = false) (h : s.execute start id ref a = some t) :
    Alike s t := by
  simp only [execute, hchance] at h
  split at h
  · rename_i cue hkind
    exact perform_alike hchance hplain hkind (hcue cue hkind) h
  · split at h <;> cases h
    · exact .advance
    · exact .enter
  · cases h
    exact .ask _ _
  · cases h
    exact .advance
  · cases h
    exact .enter

end Acting

theorem carried_touches (h : s.Carries id e l ref a) :
    ∃ r, Touches id s r ∧ s.carried id e l ref a = r.note id ref a (some { topic := l.topic?, action := ref }) ∧
      r.lane? id = some { l with waiting := false, time := l.time + e } ∧ r.action? ref = some a := by
  have htouch := (opened_touches s id).trans (.change fun k _ => .timed k (l.time + e))
  refine ⟨_, htouch, rfl, ?_, ?_⟩
  · rw [lane?_changeLane_self, h.lane]
    rfl
  · have hlists : SameLists (s.opened id)
        ((s.opened id).changeLane id fun k => { k with waiting := false, time := l.time + e }) := by
      cases id <;> exact ⟨rfl, rfl, rfl⟩
    rw [hlists.action?, h.action]

theorem nextSide_carried (h : s.Carries id e l ref a) : (s.carried id e l ref a).nextSide = s.nextSide := by
  obtain ⟨r, htouch, hcarried, -, -⟩ := carried_touches h
  rw [hcarried]
  exact htouch.nextSide

/-- Where actions are only noted, a pass that carries out one goes on at once. -/
theorem pass_of_recording {noted : List (ActionRef × String)} (h : s.Carries id e l ref a)
    (hnoted : s.interpreter = .recording noted) :
    s.pass id e = some (({ s.carried id e l ref a with
      interpreter := .recording ((ref, a.label) :: noted) }.advance id).changeLane id Lane.prime) := by
  have hsame : (s.carried id e l ref a).interpreter = s.interpreter := Alike.carried.interpreter
  rw [pass, patience, passWithin_of_carries h]
  simp only [execute, hsame, hnoted, Option.map_some]

/-- A pass that carries out a choice asks, or finds nothing to offer. -/
theorem pass_of_choice {chance : Chance} {answers : List (Answer ListId)} {meanwhile : ListId} {name? : Option String}
    (h : s.Carries id e l ref a) (hchance : s.interpreter = .scripted chance)
    (hkind : a.kind = .choice answers meanwhile name?) :
    s.pass id e = some (((s.carried id e l ref a).ask id ref answers meanwhile).changeLane id Lane.prime) := by
  have hsame : (s.carried id e l ref a).interpreter = s.interpreter := Alike.carried.interpreter
  rw [pass, patience, passWithin_of_carries h]
  simp only [execute, hsame, hchance, hkind, Option.map_some]

theorem Touches.primed (h : Touches id s t) : Touches id s (t.changeLane id Lane.prime) :=
  h.trans (.change fun k _ => .primed k)

/-- A lane that goes on when the lane that it has started has had its pass. -/
theorem resumed_touches (u : Session) (id : LaneId) : Touches id u ((u.advance id).changeLane id Lane.prime) :=
  Touches.advance.primed

/-- An action that starts a lane goes on after the first pass of that lane. -/
theorem passWithin_of_starts (h : s.Carries id e l ref a) (htopic : s.sideTopic? a = some topic) (fuel : Nat) :
    s.passWithin (fuel + 1) id e =
      ((s.started id e l ref a topic).passWithin fuel (.side s.nextSide) 0).map fun u =>
        (u.advance id).changeLane id Lane.prime := by
  have htopic' : (s.carried id e l ref a).sideTopic? a = some topic := by rw [Alike.carried.sideTopic?, htopic]
  rw [passWithin_of_carries h, execute_of_sideTopic htopic', Option.map_map, addPlaying, nextSide_carried h]
  rfl

/-! ### What a pass leaves as it is -/

/-- Lanes may have come with new numbers, and gone; on the lanes `acting` an action has been carried out. -/
structure Spans (acting : List LaneId) (s t : Session) : Prop where
  lists : SameLists s t
  nextSide : s.nextSide ≤ t.nextSide
  numbers : t.numbers.Sublist (s.numbers ++ List.range' s.nextSide (t.nextSide - s.nextSide))
  log : ∃ log, t.events.toList = s.events.toList ++ log ∧ log.filterMap Event.actingLane? = acting

/-- Lanes that actions have started at a topic. -/
def Launched (s : Session) (l : Lane) : Prop :=
  ∃ ref a topic, s.action? ref = some a ∧ s.conversation.sideTopic? a = some topic ∧
    s.Grows (s.topicLane topic (some ref)) l

theorem Launched.grown (h : s.Launched l) : s.Grown l := by
  obtain ⟨_, _, _, _, _, hgrows⟩ := h
  exact .topic hgrows

theorem Launched.later {l' : Lane} (h : s.Launched l) (hgrows : s.Grows l l') : s.Launched l' := by
  obtain ⟨ref, a, topic, ha, htopic, hgrown⟩ := h
  exact ⟨ref, a, topic, ha, htopic, hgrown.trans hgrows⟩

theorem SameLists.launched (h : SameLists s t) (hl : s.Launched l) : t.Launched l := by
  obtain ⟨ref, a, topic, ha, htopic, hgrows⟩ := hl
  exact ⟨ref, a, topic, h.action? ▸ ha, h.conversation ▸ htopic, h.topicLane ▸ h.grows hgrows⟩

/-- Of the lanes that have been there before, only the lane `id` has changed. What is asked is asked by an action, and
    what has been carried out is one. -/
structure Confined (id : LaneId) (acting : List LaneId) (s t : Session) : Prop extends Spans acting s t where
  before : ∀ l', t.lane? id = some l' → ∃ l, s.lane? id = some l ∧ s.Grows l l'
  others : ∀ other, other ≠ id → s.Knows other → t.lane? other = s.lane? other
  added : ∀ n l, s.nextSide ≤ n → t.lane? (.side n) = some l → s.Launched l
  choice : ∀ k, t.choice = some k → s.choice = some k ∨ s.Poses k
  played : ∀ last, t.lastPlayed = some last → s.lastPlayed = some last ∨ (s.action? last.action).isSome

variable {acting acting' : List LaneId}

theorem numbered_iff : s.Numbered ↔ ∀ n ∈ s.numbers, n < s.nextSide := by
  simp [Numbered, Session.numbers]

theorem Numbered.knows (hs : s.Numbered) (hl : s.lane? id = some l) : s.Knows id := by
  cases id with
  | main => trivial
  | side n =>
    refine numbered_iff.mp hs n (lane?_side_isSome_iff.mp ?_)
    rw [hl]
    rfl

/-- Numbers that are given out one after the other. -/
theorem range'_append_of_le {i j k : Nat} (hij : i ≤ j) (hjk : j ≤ k) :
    List.range' i (k - i) = List.range' i (j - i) ++ List.range' j (k - j) := by
  have hmiddle : j = i + 1 * (j - i) := by omega
  have hlength : k - i = (j - i) + (k - j) := by omega
  rw [hlength, ← List.range'_append, ← hmiddle]

namespace Spans

theorem trans (h : Spans acting s t) (h' : Spans acting' t u) : Spans (acting ++ acting') s u where
  lists := h.lists.trans h'.lists
  nextSide := Nat.le_trans h.nextSide h'.nextSide
  numbers := by
    rw [range'_append_of_le h.nextSide h'.nextSide, ← List.append_assoc]
    exact h'.numbers.trans (h.numbers.append_right _)
  log := by
    obtain ⟨log, hlog, hacting⟩ := h.log
    obtain ⟨log', hlog', hacting'⟩ := h'.log
    exact ⟨log ++ log', by rw [hlog', hlog, List.append_assoc], by rw [List.filterMap_append, hacting, hacting']⟩

theorem numbered (h : Spans acting s t) (hs : s.Numbered) : t.Numbered := by
  rw [numbered_iff] at hs ⊢
  intro n hn
  rcases List.mem_append.mp (h.numbers.subset hn) with hold | hnew
  · exact Nat.lt_of_lt_of_le (hs n hold) h.nextSide
  · have := List.mem_range'_1.mp hnew
    have := h.nextSide
    omega

end Spans

theorem Alters.spans (h : Alters id s t) : Spans [] s t := by
  obtain ⟨log, hlog, hnone, -⟩ := h.log
  refine ⟨h.lists, Nat.le_of_eq h.nextSide.symm, ?_, log, hlog, hnone⟩
  rw [h.numbers, h.nextSide, Nat.sub_self]
  simp

namespace Confined

theorem of_alters (h : Alters id s t) (hs : s.Numbered) : Confined id [] s t where
  toSpans := h.spans
  before _ hl' := h.before hl'
  others other hne _ := h.others other hne
  added n l hn hl := by
    -- No lane has such a number.
    have hmem : n ∈ t.numbers := lane?_side_isSome_iff.mp (by rw [hl]; rfl)
    have := numbered_iff.mp hs n (h.numbers ▸ hmem)
    omega
  choice := h.choice
  played last hlast := .inl (h.played ▸ hlast)

theorem of_touches (h : Touches id s t) (hs : s.Numbered) : Confined id [] s t := of_alters h.toAlters hs

/-- A lane has been there before, or an action has started it. -/
theorem lane {l' : Lane} (h : Confined id acting s t) (hl' : t.lane? other = some l') :
    (∃ l, s.lane? other = some l ∧ s.Grows l l') ∨ ¬s.Knows other ∧ s.Launched l' := by
  by_cases hid : other = id
  · exact .inl (h.before l' (hid ▸ hl') |>.imp fun l hl => hid ▸ hl)
  · by_cases hknows : s.Knows other
    · exact .inl ⟨l', h.others other hid hknows ▸ hl', .refl⟩
    · cases other with
      | main => exact absurd trivial hknows
      | side n => exact .inr ⟨hknows, h.added n l' (Nat.le_of_not_lt hknows) hl'⟩

theorem trans (h : Confined id acting s t) (h' : Confined id acting' t u) : Confined id (acting ++ acting') s u where
  toSpans := h.toSpans.trans h'.toSpans
  before l'' hl'' := by
    obtain ⟨l', hl', hgrows'⟩ := h'.before l'' hl''
    obtain ⟨l, hl, hgrows⟩ := h.before l' hl'
    exact ⟨l, hl, hgrows.trans (h.lists.symm.grows hgrows')⟩
  others other hne hknows := (h'.others other hne (hknows.later h.nextSide)).trans (h.others other hne hknows)
  added n l hn hl := by
    by_cases hold : n < t.nextSide
    · by_cases hid : id = .side n
      · subst hid
        obtain ⟨l', hl', hgrows⟩ := h'.before l hl
        exact (h.added n l' hn hl').later (h.lists.symm.grows hgrows)
      · exact h.added n l hn ((h'.others (.side n) (Ne.symm hid) hold).symm.trans hl)
    · exact h.lists.symm.launched (h'.added n l (Nat.le_of_not_lt hold) hl)
  choice k hk := by
    rcases h'.choice k hk with hold | hposes
    · exact h.choice k hold
    · exact .inr (h.lists.symm.poses hposes)
  played last hlast := by
    rcases h'.played last hlast with hold | hthere
    · exact h.played last hold
    · exact .inr (h.lists.action? ▸ hthere)

theorem note (hs : s.Numbered) {last : LastPlayed} (hlast : (s.action? last.action).isSome) :
    Confined id [id] s (s.note id ref a (some last)) where
  lists := ⟨rfl, rfl, rfl⟩
  nextSide := Nat.le_refl _
  numbers := by simp [Session.note, Session.record, Session.numbers]
  log := ⟨[.dispatched id ref a.label], by simp [Session.note, Session.record], rfl⟩
  before l' hl' := ⟨l', by cases id <;> exact hl', .refl⟩
  others other _ _ := by cases other <;> rfl
  added n l hn hl := by
    have hmem : n ∈ s.numbers := lane?_side_isSome_iff.mp (Option.isSome_of_eq_some hl)
    have := numbered_iff.mp hs n hmem
    omega
  choice _ := .inl
  played last' hlast' := .inr (Option.some.inj hlast' ▸ hlast)

/-- Playback ends. -/
theorem ended (hs : s.Numbered) : Confined id [] s ({ s with running := false }.record .ended) where
  lists := ⟨rfl, rfl, rfl⟩
  nextSide := Nat.le_refl _
  numbers := by simp [Session.record, Session.numbers]
  log := ⟨[.ended], by simp [Session.record], rfl⟩
  before l' hl' := ⟨l', by cases id <;> exact hl', .refl⟩
  others other _ _ := by cases other <;> rfl
  added n l hn hl := by
    have hmem : n ∈ s.numbers := lane?_side_isSome_iff.mp (Option.isSome_of_eq_some hl)
    have := numbered_iff.mp hs n hmem
    omega
  choice _ := .inl
  played _ := .inl

theorem remove (hs : s.Numbered) (n : Nat) : Confined (.side n) [] s (s.removeLane n) := by
  have hgone : ∀ m, (s.removeLane n).lane? (.side m) = if m = n then none else s.lane? (.side m) := by
    intro m
    split
    · rename_i h
      exact h ▸ lookup_filter_self n s.sides
    · rename_i h
      exact lookup_filter_of_ne h s.sides
  refine ⟨⟨⟨rfl, rfl, rfl⟩, Nat.le_refl _, ?_, [.laneRemoved n], by simp [removeLane, record], rfl⟩, ?_, ?_, ?_,
    fun _ => .inl, fun _ => .inl⟩
  · have hsub : (s.removeLane n).numbers.Sublist s.numbers := List.filter_sublist.map _
    exact hsub.trans (List.sublist_append_left _ _)
  · intro l' hl'
    rw [hgone, if_pos rfl] at hl'
    cases hl'
  · intro other hne _
    cases other with
    | main => rfl
    | side m => rw [hgone, if_neg fun heq : m = n => hne (heq ▸ rfl)]
  · intro m l hm hl
    rw [hgone] at hl
    split at hl
    · cases hl
    · have := numbered_iff.mp hs m (lane?_side_isSome_iff.mp (Option.isSome_of_eq_some hl))
      omega

/-- A lane that is added has its first pass, which leaves the lane that has added it alone. -/
theorem start {l₀ : Lane} (hs : s.Numbered) (hknows : s.Knows id) (hfresh : s.Launched l₀)
    (h : Confined (.side s.nextSide) acting (s.addLane l₀) u) : Confined id acting s u := by
  have hadd := Effect.addLane hs l₀
  have hold : ∀ other, s.Knows other → other ≠ .side s.nextSide := by
    rintro other hother rfl
    exact Nat.lt_irrefl _ hother
  have hlane : ∀ other, s.Knows other → u.lane? other = s.lane? other := by
    intro other hother
    rw [h.others other (hold other hother) (hother.later hadd.nextSide), lane?_addLane_of_ne (hold other hother)]
  have hadded : Spans [] s (s.addLane l₀) := by
    refine ⟨⟨rfl, rfl, rfl⟩, hadd.nextSide, ?_, [.laneAdded s.nextSide], hadd.log, rfl⟩
    simp [Session.numbers, Session.addLane, Session.record]
  refine ⟨hadded.trans h.toSpans, fun l' hl' => ?_, fun other _ hother => hlane other hother, fun n l hn hl => ?_,
    h.choice, h.played⟩
  · exact ⟨l', (hlane id hknows).symm.trans hl', .refl⟩
  · by_cases hn' : n = s.nextSide
    · subst hn'
      obtain ⟨l', hl', hgrows⟩ := h.before l hl
      obtain rfl : l₀ = l' := Option.some.inj ((lane?_addLane hs).symm.trans hl')
      exact hfresh.later (hadded.lists.symm.grows hgrows)
    · exact hadded.lists.symm.launched (h.added n l (Nat.lt_of_le_of_ne hn (Ne.symm hn')) hl)

end Confined

theorem Idles.confined (h : s.Idles id e t) (hs : s.Numbered) : Confined id [] s t ∧ t.nextSide = s.nextSide := by
  rcases h.touches with htouch | ⟨n, u, rfl, htouch, rfl⟩ | ⟨rfl, rfl⟩
  · exact ⟨.of_touches htouch hs, htouch.nextSide⟩
  · exact ⟨(Confined.of_touches htouch hs).trans (.remove (htouch.spans.numbered hs) n), htouch.nextSide⟩
  · have hopened := opened_touches s .main
    exact ⟨(Confined.of_touches hopened hs).trans (.ended (hopened.spans.numbered hs)), hopened.nextSide⟩

/-! ### Chains of passes -/

/-- A pass on the lane `id`, from `s` to `t`, with the passes of the lanes that are started meanwhile: the lanes and the
    times of all these passes in their order. -/
inductive Chain : Session → LaneId → Seconds → List (LaneId × Seconds) → Session → Prop where
  /-- No lane is started. -/
  | alone {s t : Session} {id : LaneId} {e : Seconds}
      (hquiet : ∀ l ref a, s.Carries id e l ref a → s.sideTopic? a = none) (h : s.pass id e = some t) :
      Chain s id e [(id, e)] t
  /-- An action starts a lane, and its own lane goes on once the new one has had its pass. -/
  | starts {s u : Session} {id : LaneId} {e : Seconds} {l : Lane} {ref : ActionRef} {a : Action ListId}
      {topic : TopicId} {visits : List (LaneId × Seconds)} (h : s.Carries id e l ref a)
      (htopic : s.sideTopic? a = some topic)
      (hrest : Chain (s.started id e l ref a topic) (.side s.nextSide) 0 visits u) :
      Chain s id e ((id, e) :: visits) ((u.advance id).changeLane id Lane.prime)

/-- Passes on some lanes, one after the other. -/
inductive Rounds (e : Seconds) : Session → List LaneId → List (LaneId × Seconds) → Session → Prop where
  | nil {s : Session} : Rounds e s [] [] s
  | cons {s t u : Session} {id : LaneId} {ids : List LaneId} {visits visits' : List (LaneId × Seconds)}
      (h : Chain s id e visits t) (hrest : Rounds e t ids visits' u) : Rounds e s (id :: ids) (visits ++ visits') u

/-- An action that starts no lane is carried out at once, and touches its own lane only. -/
theorem Carries.executes (h : s.Carries id e l ref a) (hplain : s.sideTopic? a = none) :
    ∃ t, (∀ start, (s.carried id e l ref a).execute start id ref a = some t) ∧
      Touches id (s.carried id e l ref a) t := by
  obtain ⟨r, -, hcarried, hlane, ha⟩ := carried_touches h
  have hlane' : (s.carried id e l ref a).lane? id = some { l with waiting := false, time := l.time + e } := by
    rw [hcarried]
    cases id <;> exact hlane
  have ha' : (s.carried id e l ref a).action? ref = some a := hcarried ▸ ha
  have hside : (s.carried id e l ref a).sideTopic? a = none := by rw [Alike.carried.sideTopic?, hplain]
  exact execute_touches hside hlane' h.next ha'

/-- What a pass comes to that starts no lane. -/
inductive Alone (s : Session) (id : LaneId) (e : Seconds) : Session → Prop where
  /-- An action is carried out, which is done at once. -/
  | acts {l : Lane} {ref : ActionRef} {a : Action ListId} {u : Session} (h : s.Carries id e l ref a)
      (hplain : s.sideTopic? a = none)
      (hrun : ∀ start, (s.carried id e l ref a).execute start id ref a = some u)
      (hdone : Touches id (s.carried id e l ref a) u) : Alone s id e (u.changeLane id Lane.prime)
  | idles {t : Session} (h : s.Idles id e t) : Alone s id e t

/-- A pass that starts no lane ends, however many passes may be within each other. -/
theorem passWithin_of_quiet (hquiet : ∀ l ref a, s.Carries id e l ref a → s.sideTopic? a = none) :
    ∃ t, (∀ fuel, s.passWithin (fuel + 1) id e = some t) ∧ s.Alone id e t := by
  by_cases hcarries : ∃ l ref a, s.Carries id e l ref a
  · obtain ⟨l, ref, a, hcarries⟩ := hcarries
    obtain ⟨u, hrun, hdone⟩ := hcarries.executes (hquiet l ref a hcarries)
    refine ⟨_, fun fuel => ?_, .acts hcarries (hquiet l ref a hcarries) hrun hdone⟩
    rw [passWithin_of_carries hcarries, hrun, Option.map_some]
  · have hidle : ∀ l ref a, ¬s.Carries id e l ref a := fun l ref a h => hcarries ⟨l, ref, a, h⟩
    obtain ⟨t, hrun, hidles⟩ := passWithin_of_idle hidle
    exact ⟨t, hrun, .idles hidles⟩

theorem pass_alone (hquiet : ∀ l ref a, s.Carries id e l ref a → s.sideTopic? a = none) (h : s.pass id e = some t) :
    s.Alone id e t := by
  obtain ⟨u, hrun, halone⟩ := passWithin_of_quiet hquiet
  obtain rfl : u = t := Option.some.inj ((hrun _).symm.trans h)
  exact halone

theorem Alone.confined (h : s.Alone id e t) (hs : s.Numbered) :
    ∃ acting, Confined id acting s t ∧ acting.Sublist [id] ∧ t.nextSide = s.nextSide := by
  cases h with
  | @acts l ref a u h hplain hrun hdone =>
    obtain ⟨r, htouch, hcarried, -, ha⟩ := carried_touches h
    rw [hcarried] at hdone
    have hr : r.Numbered := htouch.spans.numbered hs
    have hnote : Confined id [id] r (r.note id ref a (some { topic := l.topic?, action := ref })) :=
      .note hr (Option.isSome_of_eq_some ha)
    have hafter : Confined id [] (r.note id ref a (some { topic := l.topic?, action := ref }))
        (u.changeLane id Lane.prime) := .of_touches hdone.primed (hnote.numbered hr)
    exact ⟨[id], (Confined.of_touches htouch hs).trans (hnote.trans hafter), .refl _,
      hdone.primed.nextSide.trans htouch.nextSide⟩
  | idles hidles => exact ⟨[], (hidles.confined hs).1, List.nil_sublist _, (hidles.confined hs).2⟩

theorem quiet_or_starts (s : Session) (id : LaneId) (e : Seconds) :
    (∀ l ref a, s.Carries id e l ref a → s.sideTopic? a = none) ∨
      ∃ l ref a topic, s.Carries id e l ref a ∧ s.sideTopic? a = some topic := by
  by_cases h : ∃ l ref a topic, s.Carries id e l ref a ∧ s.sideTopic? a = some topic
  · exact .inr h
  · exact .inl fun l ref a hc =>
      Option.eq_none_iff_forall_ne_some.mpr fun topic htopic => h ⟨l, ref, a, topic, hc, htopic⟩

theorem Chain.of_passWithin {fuel : Nat} (h : s.passWithin fuel id e = some t) : ∃ visits, Chain s id e visits t := by
  induction fuel generalizing s id e t with
  | zero => cases h
  | succ fuel ih =>
    rcases s.quiet_or_starts id e with hquiet | ⟨l, ref, a, topic, hc, htopic⟩
    · obtain ⟨t', hrun, -⟩ := passWithin_of_quiet hquiet
      obtain rfl : t' = t := Option.some.inj ((hrun fuel).symm.trans h)
      exact ⟨_, .alone hquiet (hrun _)⟩
    · rw [passWithin_of_starts hc htopic] at h
      obtain ⟨u, hu, rfl⟩ := Option.map_eq_some_iff.mp h
      obtain ⟨visits, hrest⟩ := ih hu
      exact ⟨_, .starts hc htopic hrest⟩

/-- An action that starts no lane is all that a chain comes to. -/
theorem Chain.pass_of_carries {visits : List (LaneId × Seconds)} (h : Chain s id e visits t)
    (hcarries : s.Carries id e l ref a) (hplain : s.sideTopic? a = none) : s.pass id e = some t := by
  cases h with
  | alone _ h => exact h
  | starts hcarries' htopic =>
    cases (carries_iff.mp hcarries).symm.trans (carries_iff.mp hcarries')
    cases hplain.symm.trans htopic

/-- The numbers that are given out from `s` to `t`, each with the time of the first pass. -/
def firstVisits (s t : Session) : List (LaneId × Seconds) :=
  (List.range' s.nextSide (t.nextSide - s.nextSide)).map fun n => (.side n, 0)

/-- A chain changes its own lane, and the lanes that it adds have one pass each, without any time. -/
theorem Chain.confined {visits : List (LaneId × Seconds)} (hs : s.Numbered) (h : Chain s id e visits t) :
    visits = (id, e) :: firstVisits s t ∧
      ∃ acting, Confined id acting s t ∧ acting.Sublist (visits.map (·.1)) := by
  induction h with
  | @alone s t id e hquiet h =>
    obtain ⟨acting, hconfined, hacting, hnext⟩ := (pass_alone hquiet h).confined hs
    exact ⟨by simp [firstVisits, hnext], acting, hconfined, hacting⟩
  | @starts s u id e l ref a topic visits h htopic _ ih =>
    obtain ⟨r, htouch, hcarried, hlane, ha⟩ := carried_touches h
    let last : Option LastPlayed := some { topic := l.topic?, action := ref }
    have hr : r.Numbered := htouch.spans.numbered hs
    have hnote : Confined id [id] r (r.note id ref a last) := .note hr (Option.isSome_of_eq_some ha)
    have hn : (r.note id ref a last).Numbered := hnote.numbered hr
    have hnext : (r.note id ref a last).nextSide = s.nextSide := htouch.nextSide
    have hstarted : s.started id e l ref a topic =
        (r.note id ref a last).addLane ((r.note id ref a last).topicLane topic (some ref)) := by
      rw [started, hcarried]
    rw [hstarted] at ih
    have hadd := Effect.addLane hn ((r.note id ref a last).topicLane topic (some ref))
    obtain ⟨hvisits, acting, hnested, hacting⟩ := ih (hadd.numbered hn)
    have hback := resumed_touches u id
    have hgiven : (((r.note id ref a last).addLane ((r.note id ref a last).topicLane topic (some ref)))).nextSide =
        s.nextSide + 1 := congrArg (· + 1) hnext
    have hle := hnested.nextSide
    rw [hgiven] at hle
    refine ⟨?_, id :: acting, ?_, hacting.cons_cons id⟩
    · -- The new lane comes first among the numbers that are given out.
      have hlast : ((u.advance id).changeLane id Lane.prime).nextSide = u.nextSide := hback.nextSide
      have hlength : u.nextSide - s.nextSide = (u.nextSide - (s.nextSide + 1)) + 1 := by omega
      rw [hvisits, firstVisits, firstVisits, hgiven, hlast, hlength, List.range'_succ]
      rfl
    · have hknows : (r.note id ref a last).Knows id :=
        hn.knows (l := { l with waiting := false, time := l.time + e }) (by cases id <;> exact hlane)
      have hlaunched : (r.note id ref a last).Launched ((r.note id ref a last).topicLane topic (some ref)) := by
        obtain ⟨chance, file, name, -, hkind, hfind⟩ := sideTopic?_eq_some htopic
        refine ⟨ref, a, topic, ha, ?_, .refl⟩
        rw [Conversation.sideTopic?, hkind]
        exact htouch.lists.conversation ▸ hfind
      have hmeanwhile : Confined id acting (r.note id ref a last) u :=
        .start hn hknows hlaunched (by rw [hnext]; exact hnested)
      have hafter : Confined id [] u ((u.advance id).changeLane id Lane.prime) :=
        .of_touches hback (hmeanwhile.numbered hn)
      have hall := (Confined.of_touches htouch hs).trans (hnote.trans (hmeanwhile.trans hafter))
      simpa using hall

/-- A lane that an action has added is at the start of its topic. -/
theorem started_topicLane (hs : s.Numbered) (h : s.Carries id e l ref a) (topic : TopicId) :
    (s.started id e l ref a topic).Numbered ∧ (s.started id e l ref a topic).lane? (.side s.nextSide) =
      some ((s.started id e l ref a topic).topicLane topic (some ref)) := by
  obtain ⟨r, htouch, hcarried, -, -⟩ := carried_touches h
  have hnum : (s.carried id e l ref a).Numbered := by
    rw [hcarried]
    exact (htouch.spans.numbered hs : r.Numbered)
  have hadded := lane?_addLane (l := (s.carried id e l ref a).topicLane topic (some ref)) hnum
  rw [nextSide_carried h] at hadded
  exact ⟨(Effect.addLane hnum _).numbered hnum, hadded⟩

theorem pass_confined (hs : s.Numbered) (h : s.pass id e = some t) : ∃ acting, Confined id acting s t := by
  obtain ⟨visits, hchain⟩ := Chain.of_passWithin h
  obtain ⟨-, acting, hconfined, -⟩ := hchain.confined hs
  exact ⟨acting, hconfined⟩

/-! ### Frames -/

/-- The lanes in the order of their passes. -/
def order (s : Session) : List LaneId := s.numbers.map .side ++ [.main]

/-- The session when the actors have gone on speaking for some time. -/
def aged (s : Session) (e : Seconds) : Session :=
  { s.syncSlots with slots := s.syncSlots.slots.map (Speech.after · e) }

theorem aged_touches (s : Session) (e : Seconds) (id : LaneId) : Touches id s (s.aged e) :=
  .stage ⟨rfl, rfl, rfl⟩ rfl rfl rfl rfl (fun _ => .inl) rfl fun h => h

/-- Whether time passes on the lanes. -/
def Plays (s : Session) : Prop := s.hasScript ∧ s.running ∧ s.paused = false

instance : Decidable s.Plays := inferInstanceAs (Decidable (_ ∧ _))

theorem update_eq : s.update e =
    (if s.Plays then (s.aged e).passes e else some s).map fun u => { u with camera := u.camera.after e } := by
  have hplays : (s.hasScript && s.running && !s.paused) = true ↔ s.Plays := by simp [Plays, and_assoc]
  unfold update
  simp only [hplays]
  split
  · rw [aged]
    cases ({ s.syncSlots with slots := s.syncSlots.slots.map (Speech.after · e) } : Session).passes e <;> rfl
  · rfl

theorem passes_eq : s.passes e = s.order.foldlM (fun s id => s.pass id e) s := by
  have hmain : ∀ t : Session, [LaneId.main].foldlM (fun s id => s.pass id e) t = t.pass .main e := fun t => by
    rw [List.foldlM_cons]
    exact Option.bind_fun_some _
  rw [order, Session.numbers, List.map_map, List.foldlM_append, List.foldlM_map]
  simp only [hmain]
  rfl

/-- What holds when everybody has gone on speaking, and is kept by every pass, holds after a frame, if it has nothing to do
    with the camera. -/
theorem update_preserves {P : Session → Prop} (hs : P s) (haged : P (s.aged e))
    (hpass : ∀ id r u, P r → r.pass id e = some u → P u) (hcamera : ∀ u camera, P u → P { u with camera })
    (h : s.update e = some t) : P t := by
  rw [update_eq] at h
  obtain ⟨u, hu, rfl⟩ := Option.map_eq_some_iff.mp h
  refine hcamera u _ ?_
  split at hu
  · rw [passes_eq] at hu
    exact foldlM_preserves (fun id _ r u => hpass id r u) haged hu
  · cases hu
    exact hs

theorem rounds_of_foldlM {ids : List LaneId} (h : ids.foldlM (fun s id => s.pass id e) s = some t) :
    ∃ visits, Rounds e s ids visits t := by
  induction ids generalizing s with
  | nil =>
    cases h
    exact ⟨[], .nil⟩
  | cons id ids ih =>
    obtain ⟨u, hu, hrest⟩ := Option.bind_eq_some_iff.mp h
    obtain ⟨visits, hchain⟩ := Chain.of_passWithin hu
    obtain ⟨visits', hrounds⟩ := ih hrest
    exact ⟨_, .cons hchain hrounds⟩

theorem passes_rounds (h : s.passes e = some t) : ∃ visits, Rounds e s s.order visits t :=
  rounds_of_foldlM (passes_eq ▸ h)

end Session
end Dialogue
