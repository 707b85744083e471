import Mathlib.Data.Nat.Find
import Dialogue.Proofs.Guards

/-! Topics that are called. The list of a topic above the outermost list of a lane has been entered by an action that
    calls the topic, and the list below still is at this action (`Grown.called`). So when the topic is stopped, the lane
    goes on just past the call (`stopTopic_returns`). -/

namespace Dialogue

/-- The index of the innermost list that is that of a topic; zero if there is none. -/
def Lane.topicIndex (l : Lane) : Nat := Nat.findGreatest (fun k => l.cursors[k]?.any (·.topic.isSome)) l.depth

namespace Cursor
variable {c : Cursor}

/-- A list that does not start over is at its end after its last action. -/
theorem advance_forwardLast (h : c.looping = false) : c.forwardLast.advance = c.forwardEnd := by
  have hend : min (c.length - 1 + 1) c.length = c.length := by omega
  simp [advance, forwardLast, forwardEnd, goTo, h, hend]

end Cursor

namespace Lane
variable {l : Lane} {outer inner : List Cursor} {root below called : Cursor} {k : Nat}

/-- The lists within the innermost topic belong to no topic of their own. -/
theorem topic_eq_none {i : Nat} {cur : Cursor} (hi : l.topicIndex < i) (hcur : l.cursors[i]? = some cur) :
    cur.topic = none := by
  have hdepth : i ≤ l.depth := Nat.le_of_lt (List.getElem?_eq_some_iff.mp hcur).1
  have hnot := Nat.findGreatest_is_greatest hi hdepth
  simpa [hcur] using hnot

theorem exists_of_topicIndex_eq_zero (h : l.topicIndex = 0) (hne : l.cursors ≠ []) :
    ∃ root inner, l.cursors = root :: inner ∧ ∀ cur ∈ inner, cur.topic = none := by
  obtain ⟨root, inner, hcursors⟩ := List.exists_cons_of_ne_nil hne
  refine ⟨root, inner, hcursors, fun cur hcur => ?_⟩
  obtain ⟨i, hi⟩ := List.getElem?_of_mem hcur
  have hat : l.cursors[i + 1]? = some cur := by rw [hcursors, List.getElem?_cons_succ, hi]
  exact topic_eq_none (h ▸ Nat.succ_pos i) hat

theorem exists_of_topicIndex_eq_succ (h : l.topicIndex = k + 1) :
    ∃ outer below called inner, l.cursors = outer ++ below :: called :: inner ∧ outer.length = k ∧ called.topic.isSome ∧
      ∀ cur ∈ inner, cur.topic = none := by
  have htopic : l.cursors[k + 1]?.any (·.topic.isSome) = true :=
    h ▸ Nat.findGreatest_of_ne_zero (P := fun k => l.cursors[k]?.any (·.topic.isSome) = true) rfl (by omega)
  obtain ⟨called, hcalled, hsome⟩ := (Option.any_eq_true _ _).mp htopic
  obtain ⟨hlen, hcalled⟩ := List.getElem?_eq_some_iff.mp hcalled
  have hk : k < l.cursors.length := Nat.lt_of_succ_lt hlen
  refine ⟨l.cursors.take k, l.cursors[k], called, l.cursors.drop (k + 2), ?_, ?_, hsome, fun cur hcur => ?_⟩
  · rw [← hcalled, List.getElem_cons_drop, List.getElem_cons_drop, List.take_append_drop]
  · rw [List.length_take, Nat.min_eq_left (Nat.le_of_lt hk)]
  · obtain ⟨i, hi⟩ := List.getElem?_of_mem hcur
    rw [List.getElem?_drop] at hi
    exact topic_eq_none (by omega) hi

theorem dropWhile_inner (hinner : ∀ cur ∈ inner, cur.topic = none) (outer : List Cursor) :
    (outer ++ inner).reverse.dropWhile (fun cur => cur.topic.isNone) =
      outer.reverse.dropWhile fun cur => cur.topic.isNone := by
  rw [List.reverse_append, List.dropWhile_append_of_pos]
  exact fun cur hcur => Option.isNone_iff_eq_none.mpr (hinner cur (List.mem_reverse.mp hcur))

theorem leaveToTopic_of_topic (hcursors : l.cursors = outer ++ called :: inner) (htopic : called.topic.isSome)
    (hinner : ∀ cur ∈ inner, cur.topic = none) : l.leaveToTopic.cursors = outer ++ [called] := by
  have hkept : l.cursors.reverse.dropWhile (fun cur => cur.topic.isNone) = called :: outer.reverse := by
    rw [hcursors, List.append_cons, dropWhile_inner hinner, List.reverse_concat]
    exact List.dropWhile_cons_of_neg (by simpa [Option.isSome_iff_ne_none] using htopic)
  rw [leaveToTopic_eq, hkept]
  simp

theorem leaveToTopic_of_none (hcursors : l.cursors = root :: inner) (hinner : ∀ cur ∈ inner, cur.topic = none) :
    l.leaveToTopic.cursors = [root] := by
  -- The outermost list is left over, whether it is that of a topic or not.
  cases htopic : root.topic with
  | some topic =>
    have hroot : l.cursors = [] ++ root :: inner := hcursors
    exact leaveToTopic_of_topic hroot (by simp [htopic]) hinner
  | none =>
    have hkept : l.cursors.reverse.dropWhile (fun cur => cur.topic.isNone) = [] := by
      rw [hcursors, ← List.singleton_append, dropWhile_inner hinner]
      simp [htopic]
    rw [leaveToTopic_eq, hkept, hcursors]
    rfl

/-- Stopping a topic that has been called leaves it, and the list that has called it goes on. -/
theorem stopTopic_of_topic (hcursors : l.cursors = outer ++ below :: called :: inner) (htopic : called.topic.isSome)
    (hinner : ∀ cur ∈ inner, cur.topic = none) (hcalled : called.looping = false) :
    (l.leaveToTopic.changeTop Cursor.forwardLast).advance = (⟨outer ++ [below.advance], true, 0⟩, true) := by
  have hkept : l.leaveToTopic = ⟨outer ++ [below] ++ [called], l.waiting, l.time⟩ := by
    rw [← leaveToTopic_of_topic (by rw [hcursors, List.append_cons]) htopic hinner]
    rfl
  have hend : called.forwardLast.advance.action? = none := by
    rw [Cursor.advance_forwardLast hcalled, Cursor.action?_forwardEnd]
  rw [hkept, changeTop_concat, advance_of_none hend]

/-- If no topic has been called, the outermost list is at its end. -/
theorem stopTopic_of_none (hcursors : l.cursors = root :: inner) (hinner : ∀ cur ∈ inner, cur.topic = none)
    (hroot : root.looping = false) :
    (l.leaveToTopic.changeTop Cursor.forwardLast).advance = (⟨[root.forwardEnd], l.waiting, l.time⟩, false) := by
  have hkept : l.leaveToTopic = ⟨[] ++ [root], l.waiting, l.time⟩ := by
    rw [List.nil_append, ← leaveToTopic_of_none hcursors hinner]
    rfl
  have hend : root.forwardLast.advance.action? = none := by
    rw [Cursor.advance_forwardLast hroot, Cursor.action?_forwardEnd]
  rw [hkept, changeTop_concat, List.nil_append, advance_root hend, Cursor.advance_forwardLast hroot]

end Lane

namespace Session
variable {c : Conversation} {hosted : List Nat} {s t : Session} {id : LaneId} {l l' : Lane} {e : Seconds}
variable {ref : ActionRef} {a : Action ListId} {cur : Cursor}

/-- The list of the cursor is that of a topic, which the action calls. -/
structure Calls (s : Session) (ref : ActionRef) (cur : Cursor) : Prop where
  action : ∃ a file name topic, s.action? ref = some a ∧ a.kind = .cue (.snippet file name false) ∧
    s.conversation.findTopic? file name = some topic ∧ cur.topic = some topic
  parent : cur.parent = some ref
  straight : cur.looping = false

theorem Calls.shifts {cur' : Cursor} (h : s.Calls ref cur) (hshifts : cur.Shifts cur') : s.Calls ref cur' where
  action := hshifts.topic ▸ h.action
  parent := hshifts.parent.trans h.parent
  straight := Bool.eq_false_iff.mpr fun hloops => Bool.false_ne_true (h.straight.symm.trans (hshifts.looping hloops))

/-- Only calls enter topics. -/
theorem Enters.calls {kind : Kind ListId} (h : s.Enters ref kind cur) (ha : s.action? ref = some a)
    (hkind : a.kind = kind) (htopic : cur.topic.isSome) : s.Calls ref cur := by
  cases h with
  | @topic file name topic _ hfind hcur =>
    obtain ⟨_, -, rfl⟩ := Option.map_eq_some_iff.mp hcur
    exact ⟨⟨a, file, name, topic, ha, hkind, hfind, rfl⟩, rfl, rfl⟩
  | branch | meanwhile | body => cases htopic

/-- The list of each topic above the outermost list has been entered by the action that is next in the list below. -/
def Called (s : Session) (l : Lane) : Prop :=
  ∀ i below cur, l.cursors[i]? = some below → l.cursors[i + 1]? = some cur → cur.topic.isSome →
    ∃ ref, below.action? = some ref ∧ s.Calls ref cur

theorem called_of_fresh (h : l.IsFresh) : s.Called l := by
  intro i below cur _ hcur
  rw [List.getElem?_eq_none (Nat.le_trans h.1 (Nat.le_add_left 1 i))] at hcur
  cases hcur

theorem Called.push (hl : s.Called l) (hcursors : l'.cursors = l.cursors ++ [cur])
    (hcur : cur.topic.isSome → ∃ ref, l.action? = some ref ∧ s.Calls ref cur) : s.Called l' := by
  intro i below top hbelow htop htopic
  rw [hcursors] at hbelow htop
  rcases Cursor.pair_of_concat hbelow htop with ⟨hbelow, htop⟩ | ⟨hlast, rfl⟩
  · exact hl i below top hbelow htop htopic
  · obtain ⟨ref, hnext, hcalls⟩ := hcur htopic
    rw [Lane.action?, Lane.top?, hlast, Option.bind_some] at hnext
    exact ⟨ref, hnext, hcalls⟩

theorem Forms.called (h : s.Forms l l') (hl : s.Called l) : s.Called l' := by
  cases h with
  | kept n f _ hshifts hcursors =>
    intro i below cur' hbelow hcur' htopic
    rw [hcursors] at hbelow hcur'
    -- The list below is not the innermost one, so it still is at the call.
    obtain ⟨cur, hbelow, hcur, hchange⟩ := Cursor.exists_pair_kept hbelow hcur'
    have hmoves : cur.Shifts cur' := by
      rcases hchange with rfl | rfl
      · exact .refl _
      · exact hshifts cur
    obtain ⟨ref, hnext, hcalls⟩ := hl i below cur hbelow hcur (hmoves.topic ▸ htopic)
    exact ⟨ref, hnext, hcalls.shifts hmoves⟩
  | rooted _ hcursors =>
    have hroot : s.Called ⟨s.root?.toList, true, 0⟩ := called_of_fresh isFresh_root
    intro i below cur hbelow hcur
    exact hroot i below cur (hcursors ▸ hbelow) (hcursors ▸ hcur)
  | entered hnext ha hcur hcursors =>
    exact hl.push hcursors fun htopic => ⟨_, hnext, hcur.calls ha rfl htopic⟩

theorem Alteration.called (h : s.Alteration l l') (hl : s.Called l) : s.Called l' := by
  cases h with
  | played h => exact h.forms.called hl
  | @passed d hd =>
    have hforms : s.Forms l (l.changeAt d Cursor.forwardEnd) := by
      refine .all Cursor.Shifts.forwardEnd ?_
      rw [Lane.depth] at hd
      rw [hd]
      rfl
    exact hforms.called hl
  | answered list hne ha =>
    -- The list of an answer is not that of a topic; the list below it is at its end already.
    exact hl.push rfl fun h => absurd h Bool.false_ne_true

theorem Grows.called (h : s.Grows l l') (hl : s.Called l) : s.Called l' := by
  induction h with
  | refl => exact hl
  | tail _ hchange ih => exact hchange.called ih

theorem Grown.called (h : s.Grown l) : s.Called l := by
  cases h with
  | main h => exact Grows.called h (called_of_fresh ⟨Nat.zero_le 1, by simp⟩)
  | topic h => exact Grows.called h (called_of_fresh (isFresh_topicLane _ _))

/-! ### Stopping a topic -/

theorem lane?_advance (hscript : s.hasScript) (hl : s.lane? id = some l) (hne : l.cursors ≠ []) :
    (s.advance id).lane? id = some l.advance.1 := by
  rw [advance_of_ne_nil hscript hl hne]
  split
  · exact lane?_record_changeLane hl _ _
  · rw [lane?_changeLane_self, hl, Option.map_some]

/-- After the last action of the innermost topic, the lane goes on as it does at the end of any list. -/
theorem pass_stopTopic {chance : Chance} (hscript : s.hasScript) (hchance : s.interpreter = .scripted chance)
    (h : s.Carries id e l ref a) (hkind : a.kind = .cue .stopTopic) :
    ∃ t, s.pass id e = some t ∧
      t.lane? id = some ⟨(l.leaveToTopic.changeTop Cursor.forwardLast).advance.1.cursors, true, 0⟩ := by
  obtain ⟨q, htouch, hcarried, hlane, -⟩ := carried_touches h
  let stop : Lane → Lane := fun k => k.leaveToTopic.changeTop Cursor.forwardLast
  let timed : Lane := { l with waiting := false, time := l.time + e }
  let r := (s.carried id e l ref a).changeLane id stop
  have hr : r.lane? id = some (stop timed) := by
    have hnoted : (s.carried id e l ref a).lane? id = some timed := by
      rw [hcarried, ← hlane]
      cases id <;> rfl
    rw [lane?_changeLane_self, hnoted, Option.map_some]
  have hnote : SameLists q (s.carried id e l ref a) := hcarried ▸ ⟨rfl, rfl, rfl⟩
  have hlists : SameLists s r := (htouch.lists.trans hnote).trans (by cases id <;> exact ⟨rfl, rfl, rfl⟩)
  have hne : (stop timed).cursors ≠ [] := by
    have hchange : s.LaneChange timed (stop timed) := .topicStopped timed
    exact hchange.forms.reforms.ne_nil (ne_nil_of_action? h.next)
  refine ⟨(r.advance id).changeLane id Lane.prime, ?_, ?_⟩
  · rw [pass, patience, passWithin_of_carries h]
    simp only [execute, (Alike.carried (s := s)).interpreter, hchance, hkind, perform, Option.map_some]
    rfl
  · have hsame (waiting : Bool) (time : Seconds) : (Lane.mk (stop l).cursors waiting time).advance.1.cursors =
        (Lane.mk (stop l).cursors true 0).advance.1.cursors := Lane.advance_clock.1
    have hclock : (stop timed).advance.1.cursors = (stop l).advance.1.cursors :=
      (hsame false (l.time + e)).trans (hsame l.waiting l.time).symm
    rw [lane?_changeLane_self, lane?_advance (hlists.hasScript.trans hscript) hr hne, Option.map_some, Lane.prime,
      hclock]

/-- Where a lane goes on when a topic is stopped. If the innermost topic has been called, the list below is at the call,
    and the lane goes on after it. Without a called topic, the lane is at the end of its outermost list. -/
theorem stopTopic_returns {chance : Chance} (hs : Arises c hosted s) (hid : ∀ n ∈ hosted, id ≠ .side n)
    (hscript : s.hasScript) (hchance : s.interpreter = .scripted chance) (h : s.Carries id e l ref a)
    (hkind : a.kind = .cue .stopTopic) :
    ∃ t, s.pass id e = some t ∧
      (l.topicIndex = 0 → ∃ root, l.cursors[0]? = some root ∧ t.lane? id = some ⟨[root.forwardEnd], true, 0⟩ ∧
        root.forwardEnd.action? = none) ∧
      ∀ k, l.topicIndex = k + 1 → ∃ below called call, l.cursors[k]? = some below ∧ l.cursors[k + 1]? = some called ∧
        below.action? = some call ∧ s.Calls call called ∧
        t.lane? id = some ⟨l.cursors.take k ++ [below.advance], true, 0⟩ := by
  have hne : l.cursors ≠ [] := ne_nil_of_action? h.next
  have hopened : SameLists (s.opened id) s := (opened_touches s id).lists.symm
  have hgrown : s.Grown l := hopened.grown ((hs.regular.touches (opened_touches s id)).grown id l hid h.lane)
  obtain ⟨t, hpass, hlane⟩ := pass_stopTopic hscript hchance h hkind
  refine ⟨t, hpass, fun hnone => ?_, fun k hk => ?_⟩
  · obtain ⟨root, inner, hcursors, hinner⟩ := Lane.exists_of_topicIndex_eq_zero hnone hne
    have hroot : l.cursors[0]? = some root := by rw [hcursors, List.getElem?_cons_zero]
    rw [Lane.stopTopic_of_none hcursors hinner (hgrown.guarded.root root hroot)] at hlane
    exact ⟨root, hroot, hlane, Cursor.action?_forwardEnd⟩
  · obtain ⟨outer, below, called, inner, hcursors, rfl, htopic, hinner⟩ := Lane.exists_of_topicIndex_eq_succ hk
    have hbelow : l.cursors[outer.length]? = some below := by simp [hcursors]
    have hcalled : l.cursors[outer.length + 1]? = some called := by simp [hcursors]
    obtain ⟨call, hnext, hcalls⟩ := hgrown.called _ below called hbelow hcalled htopic
    have houter : l.cursors.take outer.length = outer := by
      rw [hcursors]
      exact List.take_left' rfl
    rw [Lane.stopTopic_of_topic hcursors htopic hinner hcalls.straight] at hlane
    exact ⟨below, called, call, hbelow, hcalled, hnext, hcalls, houter.symm ▸ hlane⟩

end Session

/-- While a door is shut, somebody knocks: this is a topic that is called over and over, and stopped within a branch. -/
def Document.knocking : Document where
  profiles := []
  values := .empty
  gameCommands := .empty
  files := [{
    id := "tale"
    topics := [
      { id := "door"
        block := ⟨[{
          kind := .wait (some (.compareVariable "open" .eq ⟨0, none⟩))
            ⟨[{ kind := .cue (.comment "listen") }, { kind := .cue (.snippet none "knock" false) }]⟩ }]⟩ },
      { id := "knock"
        block := ⟨[
          { kind := .ifElse [] ⟨[{ kind := .cue .stopTopic }, { kind := .cue (.comment "louder") }]⟩ },
          { kind := .cue (.comment "again") }]⟩ }] }]

/-- The loop that has called the topic starts over: the call is its last action. -/
theorem stopTopic_returns_knocking :
    ∃ c s l ref a t below call, Document.knocking.load = .ok c ∧ Session.Arises c [] s ∧ s.Carries .main 1 l ref a ∧
      a.kind = .cue .stopTopic ∧ l.topicIndex = 2 ∧ s.pass .main 1 = some t ∧ l.cursors[1]? = some below ∧
      below.action? = some call ∧ below.advance.next = 0 ∧
      t.lane? .main = some ⟨l.cursors.take 1 ++ [below.advance], true, 0⟩ := by
  have hplayed : ∃ c, Document.knocking.load = .ok c ∧
      ((Session.start c (.scripted .zeros) {}).steps
        [.setTopic (some ⟨0⟩), .setRunning true, .update 1, .update 1, .update 1, .update 1]).any fun s =>
          s.hasScript && s.interpreter.isScripted &&
            ((s.aged 1).carrying? .main 1).any fun x => decide (x.1.topicIndex = 2) &&
              decide (x.1.cursors[1]?.map (·.advance.next) = some 0) && decide (x.2.2.cue? = some .stopTopic) :=
    ⟨_, rfl, by decide +kernel⟩
  obtain ⟨c, s, hc, hs, hall⟩ := Session.exists_arises (by simp) hplayed
  obtain ⟨hstage, hcarrying⟩ := Bool.and_eq_true_iff.mp hall
  obtain ⟨hscript, hscripted⟩ := Bool.and_eq_true_iff.mp hstage
  obtain ⟨chance, hchance⟩ := Interpreter.isScripted_iff.mp hscripted
  obtain ⟨⟨l, ref, a⟩, hcarries, hall⟩ := (Option.any_eq_true _ _).mp hcarrying
  obtain ⟨hdeep, hcue⟩ := Bool.and_eq_true_iff.mp hall
  obtain ⟨hdepth, hagain⟩ := Bool.and_eq_true_iff.mp hdeep
  have hkind := Action.cue?_eq_some_iff.mp (of_decide_eq_true hcue)
  have hcarries := Session.carries_iff.mpr hcarries
  obtain ⟨t, hpass, -, hcalled⟩ :=
    Session.stopTopic_returns (.aged hs 1) (by simp) hscript hchance hcarries hkind
  obtain ⟨below, called, call, hbelow, -, hnext, -, hlane⟩ := hcalled 1 (of_decide_eq_true hdepth)
  have hnext' : below.advance.next = 0 := by simpa [hbelow] using hagain
  exact ⟨c, s.aged 1, l, ref, a, t, below, call, hc, .aged hs 1, hcarries, hkind, of_decide_eq_true hdepth, hpass,
    hbelow, hnext, hnext', hlane⟩

end Dialogue
