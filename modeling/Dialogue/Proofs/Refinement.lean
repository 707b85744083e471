import Dialogue.Proofs.Unrolling
import Dialogue.Playback.Operation

/-! Sessions perform scripts. Without actors and side lanes every frame of a session is a move of its main lane, so
    playing a topic carries out the actions of its performance, one a frame at most, and then ends. -/

namespace Dialogue

/-- Within one frame of this length every delay is over. -/
def Conversation.Reached (c : Conversation) (e : Seconds) : Prop :=
  ∀ actions ∈ c.lists.toList, ∀ a ∈ actions, ¬(0 : Seconds) + e < a.delay

instance (c : Conversation) (e : Seconds) : Decidable (c.Reached e) :=
  inferInstanceAs (Decidable (∀ actions ∈ c.lists.toList, ∀ a ∈ actions, ¬(0 : Seconds) + e < a.delay))

theorem Conversation.Reached.action {c : Conversation} {e : Seconds} (h : c.Reached e) {l : ListId} {i : Nat}
    {a : Action ListId} (ha : c.action? l i = some a) : ¬(0 : Seconds) + e < a.delay := by
  have hmem : a ∈ c.lists[l.index]?.getD [] := List.mem_of_getElem? ha
  cases hl : c.lists[l.index]? with
  | none => simp [hl] at hmem
  | some actions =>
    rw [hl, Option.getD_some] at hmem
    exact h actions (Array.mem_toList_iff.mpr (Array.mem_of_getElem? hl)) a hmem

/-- The actions that have been carried out since the log was last taken, with their lanes. -/
def Session.dispatches (s : Session) : List (LaneId × ActionRef) :=
  s.events.toList.filterMap fun
    | .dispatched lane action _ => some (lane, action)
    | _ => none

theorem SetOperator.apply_of_result? {operator : SetOperator} {current operand value : Int32} (chance : Chance)
    (h : operator.result? current operand = some value) :
    operator.apply current operand chance = (value, chance) := by
  cases operator <;> simp_all [SetOperator.result?, SetOperator.apply]

/-- A conversation without actors is being played on the main lane alone, in a world. -/
structure Solo (c : Conversation) (w : World) (s : Session) : Prop where
  conversation : s.conversation = c
  interpreter : ∃ chance, s.interpreter = .scripted chance
  topic : s.topic.isSome
  preview : s.preview = none
  sides : s.sides = []
  slots : s.slots = []
  world : s.world = w
  actors : w.actors = []
  running : s.running = true
  paused : s.paused = false

namespace Solo
variable {c : Conversation} {w : World} {s : Session} {cursors : List Cursor} {waiting : Bool} {time : Seconds}

theorem action? (h : Solo c w s) : s.action? = c.lookup? := by
  funext ⟨list, index⟩
  cases list with
  | script l => simp [Session.action?, Session.list, Conversation.lookup?, Conversation.action?, h.conversation]
  | preview => simp [Session.action?, Session.list, Conversation.lookup?, h.preview]

theorem hasScript (h : Solo c w s) : s.hasScript = true := by simp [Session.hasScript, h.topic]

theorem mustWait (h : Solo c w s) (a : Action ListId) : s.mustWait a = false := by
  unfold Session.mustWait
  cases a.waits
  · rfl
  · cases a.waitTarget.filter (· ≠ "") <;> simp [World.actorIndex?, h.world, h.actors, h.slots]

theorem aged (h : Solo c w s) (e : Seconds) :
    { s.syncSlots with slots := s.syncSlots.slots.map (Speech.after · e) } = s := by
  have hslots : s.syncSlots.slots.map (Speech.after · e) = s.slots := by
    simp [Session.syncSlots, h.slots, h.world, h.actors]
  rw [hslots]
  rfl

/-- Without actors and side lanes a frame is a pass of the main lane. -/
theorem update (h : Solo c w s) (e : Seconds) :
    s.update e = (s.pass .main e).map fun t => { t with camera := t.camera.after e } := by
  have hplays : (s.hasScript && s.running && !s.paused) = true := by simp [h.hasScript, h.running, h.paused]
  have hpasses : s.passes e = s.pass .main e := by rw [Session.passes, h.sides]; rfl
  rw [Session.update, hplays]
  simp only [↓reduceIte, h.aged e, hpasses]
  cases s.pass .main e <;> rfl

/-! #### Loops that are over -/

theorem isBroken (h : Solo c w s) (cur : Cursor) :
    s.isBroken cur = (c.loopOf? cur).any fun condition => !condition.holds w := by
  unfold Session.isBroken Conversation.loopOf?
  rw [h.action?, h.world]
  cases cur.looping <;> simp

theorem endBrokenLoop_of_none (h : Solo c w s) (hfail : w.failed? (c.loops s.main.cursors) = none) :
    s.endBrokenLoop .main = s := by
  have hnone : s.main.cursors.findIdx? s.isBroken = none := by
    rw [List.findIdx?_eq_none_iff]
    intro cur hcur
    rw [h.isBroken]
    cases hl : c.loopOf? cur with
    | none => rfl
    | some condition =>
      rw [World.failed?, List.findIdx?_eq_none_iff] at hfail
      simpa using hfail condition (List.mem_filterMap.mpr ⟨cur, hcur, hl⟩)
  simp [Session.endBrokenLoop, Session.lane?, hnone]

/-- The outermost loop that has failed, and its place among the cursors. -/
theorem findIdx?_isBroken (h : Solo c w s) :
    ∀ {l : List Cursor} {k : Nat}, w.failed? (c.loops l) = some k →
      ∃ depth, l.findIdx? s.isBroken = some depth ∧
        (l.take (depth + 1)).modify depth (fun cur => cur.release.forwardEnd) = c.endLoop k l
  | [], k, hk => by simp [World.failed?, Conversation.loops] at hk
  | cur :: l, k, hk => by
    cases hl : c.loopOf? cur with
    | none =>
      have hcur : s.isBroken cur = false := by rw [h.isBroken, hl]; rfl
      have hk : w.failed? (c.loops l) = some k := by simpa [Conversation.loops, hl] using hk
      obtain ⟨depth, hdepth, heq⟩ := h.findIdx?_isBroken hk
      exact ⟨depth + 1, by simp [List.findIdx?_cons, hcur, hdepth], by simp [Conversation.endLoop, hl, heq]⟩
    | some condition =>
      have hcur : s.isBroken cur = !condition.holds w := by rw [h.isBroken, hl]; rfl
      simp only [World.failed?, Conversation.loops, List.filterMap_cons, hl, List.findIdx?_cons] at hk
      by_cases hb : condition.holds w = true
      · simp only [hb, Bool.not_true, Bool.false_eq_true, ↓reduceIte, Option.map_eq_some_iff] at hk
        obtain ⟨k, hk, rfl⟩ := hk
        have hk : w.failed? (c.loops l) = some k := hk
        obtain ⟨depth, hdepth, heq⟩ := h.findIdx?_isBroken hk
        exact ⟨depth + 1, by simp [List.findIdx?_cons, hcur, hb, hdepth], by simp [Conversation.endLoop, hl, heq]⟩
      · simp only [hb, Bool.not_false, ↓reduceIte, Option.some.injEq] at hk
        subst hk
        exact ⟨0, by simp [List.findIdx?_cons, hcur, hb], by simp [Conversation.endLoop, hl]⟩

theorem endBrokenLoop_of_some (h : Solo c w s) {k : Nat} (hfail : w.failed? (c.loops s.main.cursors) = some k) :
    Solo c w (s.endBrokenLoop .main) ∧ (s.endBrokenLoop .main).main = ⟨c.endLoop k s.main.cursors, true, 0⟩ ∧
      (s.endBrokenLoop .main).dispatches = s.dispatches := by
  obtain ⟨depth, hdepth, heq⟩ := h.findIdx?_isBroken hfail
  have hended : s.endBrokenLoop .main =
      { s with main := ⟨c.endLoop k s.main.cursors, true, 0⟩ }.record (.loopEnded .main depth) := by
    simp [Session.endBrokenLoop, Session.lane?, hdepth, Session.changeLane, Lane.truncate, Lane.changeAt, Lane.prime,
      ← heq]
  rw [hended]
  exact ⟨⟨h.1, h.2, h.3, h.4, h.5, h.6, h.7, h.8, h.9, h.10⟩, rfl, by simp [Session.dispatches, Session.record]⟩

/-! #### Going on and entering lists -/

theorem cursor (h : Solo c w s) (l : ListId) : s.cursor (.script l) = c.cursor l := by
  simp [Session.cursor, Session.list, Conversation.cursor, h.conversation]

theorem advance (h : Solo c w s) (hmain : s.main = ⟨cursors, waiting, time⟩) (hne : cursors ≠ []) :
    Solo c w (s.advance .main) ∧ (s.advance .main).main = (Lane.mk cursors waiting time).advance.1 ∧
      (s.advance .main).dispatches = s.dispatches := by
  have hadvance : s.advance .main =
      let t := { s with main := (Lane.mk cursors waiting time).advance.1 }
      if (Lane.mk cursors waiting time).advance.2 then t.record (.left .main) else t := by
    have hsome : cursors.isEmpty = false := by simpa using hne
    rw [Session.advance, h.hasScript]
    simp only [↓reduceIte, Session.lane?, hmain, hsome, Bool.false_eq_true, Session.changeLane]
  rw [hadvance]
  simp only
  split
  · exact ⟨⟨h.1, h.2, h.3, h.4, h.5, h.6, h.7, h.8, h.9, h.10⟩, rfl, by simp [Session.dispatches, Session.record]⟩
  · exact ⟨⟨h.1, h.2, h.3, h.4, h.5, h.6, h.7, h.8, h.9, h.10⟩, rfl, rfl⟩

theorem enter (h : Solo c w s) (cur : Cursor) :
    Solo c w (s.enter .main cur) ∧ (s.enter .main cur).main.cursors = s.main.cursors ++ [cur] ∧
      (s.enter .main cur).dispatches = s.dispatches :=
  ⟨⟨h.1, h.2, h.3, h.4, h.5, h.6, h.7, h.8, h.9, h.10⟩, rfl,
    by simp [Session.dispatches, Session.enter, Session.record, Session.changeLane]⟩

theorem setVariable (h : Solo c w s) (chance : Chance) {name : String} {change : Change} {v : World}
    (hv : w.changed? name change = some v) :
    Solo c v (s.setVariable chance name change) ∧ (s.setVariable chance name change).main = s.main ∧
      (s.setVariable chance name change).dispatches = s.dispatches := by
  unfold World.changed? at hv
  by_cases hname : name = ""
  · obtain rfl : w = v := by simpa [hname] using hv
    simp only [Session.setVariable, hname, ↓reduceIte]
    exact ⟨h, trivial, trivial⟩
  · simp only [hname, ↓reduceIte, Option.map_eq_some_iff] at hv
    obtain ⟨value, hvalue, rfl⟩ := hv
    have happly := SetOperator.apply_of_result? chance hvalue
    simp only [Session.setVariable, hname, ↓reduceIte, h.world, happly]
    exact ⟨⟨h.1, ⟨chance, rfl⟩, h.3, h.4, h.5, h.6, rfl, h.8, h.9, h.10⟩, trivial, rfl⟩

/-- What an action does is what it means. -/
theorem execute (h : Solo c w s) (start : Session → Lane → Option Session) (ref : ActionRef) {a : Action ListId}
    {v : World} {part? : Option Part} (hmain : s.main = ⟨cursors, waiting, time⟩) (hne : cursors ≠ [])
    (heffect : c.effect? w a = some (v, part?)) :
    ∃ t, s.execute start .main ref a = some t ∧ Solo c v t ∧ t.main.cursors = c.after w ref a cursors ∧
      t.dispatches = s.dispatches := by
  obtain ⟨chance, hchance⟩ := h.interpreter
  have hgo : ∀ {t v}, Solo c v t → t.main = s.main → t.dispatches = s.dispatches → c.entered? w ref a = none →
      Solo c v (t.advance .main) ∧ (t.advance .main).main.cursors = c.after w ref a cursors ∧
        (t.advance .main).dispatches = s.dispatches := by
    intro t v ht hmain' hdispatches hnone
    obtain ⟨hsolo, hlane, hkept⟩ := ht.advance (hmain'.trans hmain) hne
    refine ⟨hsolo, ?_, hkept.trans hdispatches⟩
    rw [hlane, Lane.advance_clock.1, Conversation.after, hnone]
  have hin : ∀ {cur}, c.entered? w ref a = some cur →
      Solo c w (s.enter .main cur) ∧ (s.enter .main cur).main.cursors = c.after w ref a cursors ∧
        (s.enter .main cur).dispatches = s.dispatches := by
    intro cur hsome
    obtain ⟨hsolo, hlane, hkept⟩ := h.enter cur
    refine ⟨hsolo, ?_, hkept⟩
    rw [hlane, hmain, Conversation.after, hsome]
  unfold Conversation.effect? at heffect
  split at heffect <;> rename_i hkind <;> simp only [Session.execute, hchance, hkind]
  case h_1 =>
    simp only [Session.perform]
    obtain ⟨rfl, rfl⟩ : w = v ∧ none = part? := by simpa using heffect
    exact ⟨_, rfl, hgo h rfl rfl (by simp [Conversation.entered?, hkind])⟩
  case h_2 name duration =>
    simp only [Session.perform]
    obtain ⟨rfl, rfl⟩ : w = v ∧ none = part? := by simpa using heffect
    have ht : Solo c w { s with camera := .shooting name duration } :=
      ⟨h.1, h.2, h.3, h.4, h.5, h.6, h.7, h.8, h.9, h.10⟩
    exact ⟨_, rfl, hgo ht rfl rfl (by simp [Conversation.entered?, hkind])⟩
  case h_3 name change =>
    simp only [Session.perform]
    simp only [Option.map_eq_some_iff, Prod.mk.injEq] at heffect
    obtain ⟨_, hv, rfl, rfl⟩ := heffect
    obtain ⟨ht, hlane, hkept⟩ := h.setVariable chance hv
    exact ⟨_, rfl, hgo ht hlane hkept (by simp [Conversation.entered?, hkind])⟩
  case h_4 file topic =>
    simp only [Session.perform]
    obtain ⟨rfl, -⟩ : w = v ∧ _ := by simpa using heffect
    rw [h.conversation]
    cases hfound : c.findTopic? file topic with
    | none => exact ⟨_, rfl, hgo h rfl rfl (by simp [Conversation.entered?, hkind, hfound])⟩
    | some t =>
      obtain ⟨found, ht⟩ := Conversation.topic?_of_findTopic? hfound
      have hcursor : s.topicCursor? t = some { c.cursor found.root with topic := some t } := by
        simp [Session.topicCursor?, h.conversation, ht, h.cursor]
      simp only [Bool.false_eq_true, ↓reduceIte, hcursor]
      exact ⟨_, rfl, hin (by simp [Conversation.entered?, hkind, hfound, ht])⟩
  case h_5 cases otherwise =>
    obtain ⟨rfl, -⟩ : w = v ∧ _ := by simpa using heffect
    rw [h.conversation, h.world, h.cursor]
    change ∃ t, (if (c.list (Conversation.chosen w cases otherwise)).isEmpty then some (s.advance .main)
      else some (s.enter .main { c.cursor (Conversation.chosen w cases otherwise) with parent := some ref })) =
        some t ∧ _
    split <;> rename_i hempty
    · exact ⟨_, rfl, hgo h rfl rfl (by simp [Conversation.entered?, hkind, hempty])⟩
    · exact ⟨_, rfl, hin (by simp [Conversation.entered?, hkind, hempty])⟩
  case h_6 =>
    obtain ⟨rfl, rfl⟩ : w = v ∧ none = part? := by simpa using heffect
    exact ⟨_, rfl, hgo h rfl rfl (by simp [Conversation.entered?, hkind])⟩
  case h_7 condition body =>
    obtain ⟨rfl, -⟩ : w = v ∧ _ := by simpa using heffect
    rw [h.cursor]
    exact ⟨_, rfl, hin (by simp [Conversation.entered?, hkind])⟩
  all_goals simp at heffect

/-! #### Passes -/

theorem pass_main (hne : s.main.cursors ≠ []) (e : Seconds) :
    s.pass .main e =
      let t := s.endBrokenLoop .main
      match t.main.action? with
      | some ref =>
        match t.action? ref with
        | none => some t
        | some a =>
          t.attempt (Session.addPlaying (Session.passWithin (s.conversation.topics.length + 1))) .main t.main ref a e
      | none =>
        if t.main.top?.any (·.looping) then some t
        else if 1 < t.main.depth then some (t.advance .main)
        else some (t.finish .main) := by
  have hsome : s.main.cursors.isEmpty = false := by simpa using hne
  rw [Session.pass, Session.patience, Session.passWithin, if_neg (by simp [hsome])]
  rfl

theorem pass_of_over {t : Session} {outer : List Cursor} {below top : Cursor} (hne : s.main.cursors ≠ [])
    (ht : s.endBrokenLoop .main = t) (hmain : t.main = ⟨outer ++ [below] ++ [top], waiting, time⟩) (hover : top.IsOver)
    (e : Seconds) : s.pass .main e = some (t.advance .main) := by
  have hact : t.main.action? = none := by rw [hmain, Lane.action?_concat, hover.1]
  have htop : t.main.top?.any (·.looping) = false := by rw [hmain, Lane.top?_concat]; exact hover.2
  have hdeep : 1 < t.main.depth := by rw [hmain, Lane.depth_concat]; simp
  rw [pass_main hne]
  simp only [ht, hact, htop, Bool.false_eq_true, hdeep, ↓reduceIte]

theorem pass_of_action (h : Solo c w s) {outer : List Cursor} {top : Cursor} {ref : ActionRef} {a : Action ListId}
    {v : World} {part? : Option Part} {e : Seconds} (hmain : s.main = ⟨outer ++ [top], true, 0⟩)
    (hfail : w.failed? (c.loops (outer ++ [top])) = none) (hact : top.action? = some ref)
    (ha : c.lookup? ref = some a) (heffect : c.effect? w a = some (v, part?)) (he : ¬(0 : Seconds) + e < a.delay) :
    ∃ t, s.pass .main e = some t ∧ Solo c v t ∧ t.main = ⟨c.after w ref a (outer ++ [top]), true, 0⟩ ∧
      t.dispatches = s.dispatches ++ [(.main, ref)] := by
  have hunbroken : s.endBrokenLoop .main = s := h.endBrokenLoop_of_none (by rw [hmain]; exact hfail)
  have hnext : s.main.action? = some ref := by rw [hmain, Lane.action?_concat, hact]
  have hfound : s.action? ref = some a := by rw [h.action?, ha]
  have hopen : (s.main.waiting && s.mustWait a) = false := by rw [h.mustWait, Bool.and_false]
  have htime : s.main.time = 0 := by rw [hmain]
  let noted := { s with
    main := { s.main with waiting := false, time := 0 + e }
    lastPlayed := some { topic := s.main.topic?, action := ref } }.record (.dispatched .main ref a.label)
  have hnoted : Solo c w noted := ⟨h.1, h.2, h.3, h.4, h.5, h.6, h.7, h.8, h.9, h.10⟩
  have hmain' : noted.main = ⟨outer ++ [top], false, 0 + e⟩ := by simp [noted, Session.record, hmain]
  have hdispatches : noted.dispatches = s.dispatches ++ [(.main, ref)] := by
    simp [noted, Session.dispatches, Session.record]
  obtain ⟨t, ht, hsolo, hlane, hkept⟩ := hnoted.execute (Session.addPlaying (Session.passWithin
    (s.conversation.topics.length + 1))) ref hmain' (by simp) heffect
  refine ⟨t.changeLane .main Lane.prime, ?_, ⟨hsolo.1, hsolo.2, hsolo.3, hsolo.4, hsolo.5, hsolo.6, hsolo.7, hsolo.8,
    hsolo.9, hsolo.10⟩, ?_, hkept.trans hdispatches⟩
  · rw [pass_main (by simp [hmain])]
    simp only [hunbroken, hnext, hfound, Session.attempt, hopen, Bool.false_eq_true, htime, he, ↓reduceIte]
    exact congrArg (Option.bind · _) ht
  · rw [Session.changeLane, Lane.prime, hlane]

/-! #### Frames -/

/-- A frame of a session is a move of its main lane. -/
theorem follows (h : Solo c w s) {trace : List ActionRef} {cursors' : List Cursor} {v : World} {e : Seconds}
    (hmove : c.Moves cursors w trace cursors' v) (hmain : s.main = ⟨cursors, true, 0⟩) (he : c.Reached e) :
    ∃ t, s.update e = some t ∧ Solo c v t ∧ t.main = ⟨cursors', true, 0⟩ ∧
      t.dispatches = s.dispatches ++ trace.map (LaneId.main, ·) := by
  suffices hpass : ∃ t, s.pass .main e = some t ∧ Solo c v t ∧ t.main = ⟨cursors', true, 0⟩ ∧
      t.dispatches = s.dispatches ++ trace.map (LaneId.main, ·) by
    obtain ⟨t, ht, hsolo, hlane, hkept⟩ := hpass
    refine ⟨{ t with camera := t.camera.after e }, by rw [h.update, ht]; rfl, ?_, hlane, hkept⟩
    exact ⟨hsolo.1, hsolo.2, hsolo.3, hsolo.4, hsolo.5, hsolo.6, hsolo.7, hsolo.8, hsolo.9, hsolo.10⟩
  cases hmove with
  | @leave outer below top _ hfail hover =>
    have hunbroken : s.endBrokenLoop .main = s := h.endBrokenLoop_of_none (by rw [hmain]; exact hfail)
    obtain ⟨hsolo, hlane, hkept⟩ := h.advance hmain (by simp)
    rw [Lane.advance_of_none hover.action?_advance] at hlane
    exact ⟨_, pass_of_over (by simp [hmain]) hunbroken hmain hover e, hsolo, hlane, by simp [hkept]⟩
  | @close _ outer below top _ k hfail hend hover =>
    obtain ⟨ht, htmain, htkept⟩ := h.endBrokenLoop_of_some (k := k) (by rw [hmain]; exact hfail)
    rw [hmain, hend] at htmain
    obtain ⟨hsolo, hlane, hkept⟩ := ht.advance htmain (by simp)
    rw [Lane.advance_of_none hover.action?_advance] at hlane
    have hne : s.main.cursors ≠ [] := by
      rw [hmain]
      rintro rfl
      cases hfail
    exact ⟨_, pass_of_over hne rfl htmain hover e, hsolo, hlane, by simp [hkept, htkept]⟩
  | @act outer top _ ref a _ part? hfail hact ha heffect =>
    have hreached : ¬(0 : Seconds) + e < a.delay := by
      obtain ⟨list, i⟩ := ref
      cases list with
      | script l => exact he.action ha
      | preview => cases ha
    exact h.pass_of_action hmain hfail hact ha heffect hreached

theorem plays {trace : List ActionRef} {cursors' : List Cursor} {v : World}
    (hplays : c.Plays cursors w trace cursors' v) :
    ∃ n, ∀ {s}, Solo c w s → s.main = ⟨cursors, true, 0⟩ → ∀ es : List Seconds, (∀ e ∈ es, c.Reached e) →
      es.length = n → ∃ t, es.foldlM Session.update s = some t ∧ Solo c v t ∧ t.main = ⟨cursors', true, 0⟩ ∧
        t.dispatches = s.dispatches ++ trace.map (LaneId.main, ·) := by
  induction hplays with
  | rest =>
    refine ⟨0, fun h hmain es _ hlen => ?_⟩
    rw [List.length_eq_zero_iff.mp hlen]
    exact ⟨_, rfl, h, hmain, by simp⟩
  | frame hmove _ ih =>
    obtain ⟨n, hn⟩ := ih
    refine ⟨n + 1, fun {s} h hmain es hes hlen => ?_⟩
    match es, hlen with
    | e :: es, hlen =>
      rw [List.forall_mem_cons] at hes
      obtain ⟨t, ht, hsolo, hlane, hkept⟩ := h.follows hmove hmain hes.1
      obtain ⟨u, hu, hsolo', hlane', hkept'⟩ := hn hsolo hlane es hes.2 (by simpa using hlen)
      refine ⟨u, ?_, hsolo', hlane', by rw [hkept', hkept]; simp⟩
      rw [List.foldlM_cons, ht]
      exact hu

/-- When the topic is at its end, the next frame ends playback. -/
theorem update_end (h : Solo c w s) {cur : Cursor} (hmain : s.main = ⟨[cur], true, 0⟩) (hover : cur.IsOver)
    (e : Seconds) :
    ∃ t, s.update e = some t ∧ t.running = false ∧ t.dispatches = s.dispatches ∧ t.world = w ∧
      t.events.back? = some .ended := by
  have hloops : c.loops s.main.cursors = [] := by simp [hmain, Conversation.loops, Conversation.loopOf?, hover.2]
  have hunbroken : s.endBrokenLoop .main = s := h.endBrokenLoop_of_none (by rw [hloops]; rfl)
  have hact : s.main.action? = none := by rw [hmain]; exact hover.1
  have htop : s.main.top?.any (·.looping) = false := by rw [hmain]; exact hover.2
  have hflat : ¬1 < s.main.depth := by rw [hmain]; exact Nat.lt_irrefl 1
  have hsilent : s.allSilent = true := by simp [Session.allSilent, h.slots]
  have hpass : s.pass .main e = some ({ s with running := false }.record .ended) := by
    rw [pass_main (by simp [hmain])]
    simp only [hunbroken, hact, htop, Bool.false_eq_true, hflat, Session.finish, hsilent, ↓reduceIte]
  refine ⟨_, (h.update e).trans (congrArg _ hpass), rfl, ?_, h.world, ?_⟩
  · simp [Session.dispatches, Session.record]
  · simp [Session.record]

end Solo

theorem Session.update_of_stopped {s : Session} (h : s.running = false) (es : List Seconds) :
    ∃ camera, es.foldlM Session.update s = some { s with camera } := by
  induction es generalizing s with
  | nil => exact ⟨s.camera, rfl⟩
  | cons e es ih =>
    have hupdate : s.update e = some { s with camera := s.camera.after e } := by simp [Session.update, h]
    obtain ⟨camera, hrest⟩ := ih (s := { s with camera := s.camera.after e }) h
    exact ⟨camera, by rw [List.foldlM_cons, hupdate]; exact hrest⟩

theorem Document.load_profiles {d : Document} {c : Conversation} (h : d.load = .ok c) : c.profiles = d.profiles := by
  unfold Document.load at h
  split at h
  · cases h
  · cases h
    rfl

variable {c : Conversation} {t : TopicId} {topic : Topic} {chance : Chance} {options : Options}

/-- A topic of a conversation without actors that has just been started. -/
theorem Solo.start (chance : Chance) (options : Options) (hactors : c.profiles = []) (ht : c.topic? t = some topic) :
    let s := { (Session.start c (.scripted chance) options).setTopic (some t) with running := true }
    Solo c c.world s ∧ s.main = ⟨[{ c.cursor topic.root with topic := some t }], true, 0⟩ ∧ s.dispatches = [] := by
  have hactors' : c.world.actors = [] := by simp [Conversation.world, hactors]
  intro s
  have hs : s = { Session.start c (.scripted chance) options with
      topic := some t
      preview := none
      slots := []
      main := ⟨[{ c.cursor topic.root with topic := some t }], true, 0⟩
      running := true
      events := #[.rewound] } := by
    simp [s, Session.setTopic, Session.rewind, Session.syncSlots, Session.start, hactors, hactors', Session.record,
      Session.advance, Session.hasScript, Session.lane?, Session.changeLane, Session.root?, Session.topicCursor?, ht,
      Lane.prime, Session.cursor, Session.list, Conversation.cursor]
  rw [hs]
  exact ⟨⟨rfl, ⟨chance, rfl⟩, rfl, rfl, rfl, rfl, rfl, hactors', rfl, rfl⟩, rfl, rfl⟩

/-- Playing a topic carries out its performance, whatever the frames are, as long as no delay is longer than a frame.
    Then playback ends, with the world that the performance leaves. -/
theorem update_performs {d : Document} {trace : List ActionRef} {w : World} (hload : d.load = .ok c)
    (hactors : d.profiles = []) (ht : c.topic? t = some topic)
    (h : c.Performs [] c.world (.list topic.root 0) trace w .complete) :
    ∃ n, ∀ es : List Seconds, (∀ e ∈ es, c.Reached e) → n ≤ es.length →
      ∃ s, es.foldlM Session.update
          { (Session.start c (.scripted chance) options).setTopic (some t) with running := true } = some s ∧
        s.running = false ∧ s.dispatches = trace.map (LaneId.main, ·) ∧ s.world = w ∧
        s.events.back? = some .ended := by
  let root : Cursor := { c.cursor topic.root with topic := some t }
  have hplays : c.Plays [root.before 0] c.world trace [root.before root.length] w := h.plays ⟨rfl, rfl⟩ rfl
  obtain ⟨n, hn⟩ := Solo.plays hplays
  obtain ⟨hstart, hmain, hnothing⟩ := Solo.start chance options ((Document.load_profiles hload).trans hactors) ht
  rw [Cursor.before_zero rfl] at hn
  refine ⟨n + 1, fun es hes hlen => ?_⟩
  obtain ⟨played, e, rest, rfl, hplayed⟩ : ∃ played e rest, es = played ++ e :: rest ∧ played.length = n :=
    ⟨es.take n, es[n], es.drop (n + 1), by simp, by simp; omega⟩
  obtain ⟨s, hs, hsolo, hlane, hdispatches⟩ := hn hstart hmain played (fun e he => hes e (by simp [he])) hplayed
  obtain ⟨u, hu, hstopped, hkept, hworld, hended⟩ := hsolo.update_end hlane (Cursor.isOver_before rfl) e
  obtain ⟨camera, hrest⟩ := Session.update_of_stopped hstopped rest
  refine ⟨{ u with camera }, ?_, hstopped, ?_, hworld, hended⟩
  · rw [List.foldlM_append, hs]
    show (List.foldlM Session.update s (e :: rest)) = _
    rw [List.foldlM_cons, hu]
    exact hrest
  · show u.dispatches = _
    rw [hkept, hdispatches, hnothing, List.nil_append]

/-- A loop within a loop: the number falls to zero amid the inner one, which is what the outer one is kept by. -/
def Document.countdown : Document where
  profiles := []
  values := .empty
  gameCommands := .empty
  files := [{
    id := "tale"
    topics := [
      { id := "count"
        block := ⟨[
          { kind := .cue (.setVariable "left" ⟨.set, ⟨2, none⟩⟩) },
          { kind := .wait (some (.compareVariable "left" .gt ⟨0, none⟩)) ⟨[
            { kind := .wait (some (.compareVariable "done" .eq ⟨0, none⟩)) ⟨[
              { kind := .cue (.setVariable "left" ⟨.decrement, ⟨1, none⟩⟩) },
              { kind := .ifElse [⟨some (.compareVariable "left" .eq ⟨1, none⟩), ⟨[{ kind := .cue (.comment "one") }]⟩⟩]
                  ⟨[]⟩ }]⟩ }]⟩ },
          { kind := .cue (.snippet none "end" false) }]⟩ },
      { id := "end", block := ⟨[{ kind := .cue (.comment "the end") }]⟩ }] }]

theorem update_performs_countdown :
    ∃ c topic, Document.countdown.load = .ok c ∧ Document.countdown.profiles = [] ∧ c.topic? ⟨0⟩ = some topic ∧
      let trace : List ActionRef :=
        [(4, 0), (4, 1), (3, 0), (2, 0), (2, 1), (0, 0), (2, 0), (4, 2), (5, 0)].map fun (l, i) => ⟨.script ⟨l⟩, i⟩
      let w := c.world.setVariable "left" 0
      c.Performs [] c.world (.list topic.root 0) trace w .complete ∧ c.Reached 1 ∧
      ∃ n, ∀ es : List Seconds, (∀ e ∈ es, c.Reached e) → n ≤ es.length →
        ∃ s, es.foldlM Session.update
            { (Session.start c (.scripted .zeros) {}).setTopic (some ⟨0⟩) with running := true } = some s ∧
          s.running = false ∧ s.dispatches = trace.map (LaneId.main, ·) ∧ s.world = w ∧
          s.events.back? = some .ended := by
  refine ⟨_, _, rfl, rfl, rfl, ?_⟩
  intro trace w
  refine (fun h => ⟨h, by decide +kernel, update_performs (d := Document.countdown) rfl rfl rfl h⟩) ?_
  refine .simple rfl rfl rfl ?_
  show Conversation.Performs _ _ _ _ (_ :: (trace.extract 2 7 ++ trace.extract 7 9)) _ _
  apply Conversation.Performs.nested rfl rfl rfl
  case hpart =>
    apply Conversation.Performs.left (k := 0) rfl
    apply Conversation.Performs.cut rfl rfl rfl
    show Conversation.Performs _ _ _ _ (trace.extract 3 6 ++ trace.extract 6 7) _ _
    apply Conversation.Performs.again rfl
    case hbody =>
      apply Conversation.Performs.simple rfl rfl rfl
      show Conversation.Performs _ _ _ _ (_ :: (trace.extract 5 6 ++ [])) _ _
      exact .nested rfl rfl rfl (.simple rfl rfl rfl (.atEnd rfl)) (.atEnd rfl)
    case hloop => exact .left (k := 0) rfl (.simple rfl rfl rfl (.stopped rfl rfl))
  case hrest =>
    show Conversation.Performs _ _ _ _ (_ :: (trace.extract 8 9 ++ [])) _ _
    exact .nested rfl rfl rfl (.simple rfl rfl rfl (.atEnd rfl)) (.atEnd rfl)

end Dialogue
