import Dialogue.Proofs.Arising

/-! The discipline of loops with conditions. On a lane that is built by playing, a loop with a condition lies above the
    action that has started it (`Lane.Guarded`). So a pass that finds conditions failed leaves the outermost of their
    loops for what comes after it, and does nothing else (`pass_guarded`). -/

namespace Dialogue

namespace Lane
variable {l l' : Lane}

/-- The outermost list does not loop, and a loop with a condition has been entered by the action that is next below. -/
structure Guarded (l : Lane) : Prop where
  root : ∀ cur, l.cursors[0]? = some cur → cur.looping = false
  inner : ∀ i below cur ref, l.cursors[i]? = some below → l.cursors[i + 1]? = some cur → cur.looping = true →
    cur.guard = some ref → below.action? = some ref

namespace Guarded

theorem of_fresh (h : l.IsFresh) : l.Guarded := by
  refine ⟨fun cur hcur => h.2 cur (List.mem_of_getElem? hcur), fun i below cur ref _ hcur => ?_⟩
  rw [List.getElem?_eq_none (Nat.le_trans h.1 (Nat.le_add_left 1 i))] at hcur
  cases hcur

theorem of_cursors (h : l.Guarded) (hcursors : l'.cursors = l.cursors) : l'.Guarded := by
  obtain ⟨hroot, hinner⟩ := h
  exact ⟨hcursors ▸ hroot, hcursors ▸ hinner⟩

/-- Lists are left, and the cursor that is the innermost one then goes elsewhere. -/
theorem trim {f : Cursor → Cursor} (h : l.Guarded) (n : Nat) (hguard : ∀ cur, (f cur).guard = cur.guard)
    (hloop : ∀ cur, (f cur).looping = true → cur.looping = true)
    (hcursors : l'.cursors = (l.cursors.take n).modify (n - 1) f) : l'.Guarded := by
  refine ⟨fun cur' hcur' => ?_, fun i below cur' ref hbelow hcur' hloops hguarded => ?_⟩
  · rw [hcursors, List.getElem?_modify, List.getElem?_take] at hcur'
    obtain ⟨cur, hcur, rfl⟩ := Option.map_eq_some_iff.mp hcur'
    split at hcur
    · have hstraight : cur.looping = false := h.root cur hcur
      split
      · exact Bool.eq_false_iff.mpr fun hloops => Bool.false_ne_true (hstraight.symm.trans (hloop cur hloops))
      · exact hstraight
    · cases hcur
  · rw [hcursors] at hbelow hcur'
    obtain ⟨cur, hbelow, hcur, hchange⟩ := Cursor.exists_pair_kept hbelow hcur'
    rcases hchange with rfl | rfl
    · exact h.inner i below cur' ref hbelow hcur hloops hguarded
    · exact h.inner i below cur ref hbelow hcur (hloop cur hloops) (hguard cur ▸ hguarded)

/-- A list is entered, as a loop only by the action that is next. -/
theorem push {cur : Cursor} (h : l.Guarded)
    (hentered : cur.looping = true → ∃ ref, l.action? = some ref ∧ ∀ guard, cur.guard = some guard → guard = ref) :
    (l.push cur).Guarded := by
  refine ⟨fun cur' hcur' => ?_, fun i below cur' ref hbelow hcur' hloops hguard => ?_⟩
  · simp only [Lane.push, List.getElem?_append] at hcur'
    split at hcur'
    · exact h.root cur' hcur'
    · rename_i hempty
      obtain ⟨-, rfl⟩ : 0 - l.cursors.length = 0 ∧ cur = cur' := by simpa [List.getElem?_singleton] using hcur'
      -- On an empty lane no action is next.
      cases hloops : cur.looping with
      | false => rfl
      | true =>
        obtain ⟨ref, hnext, -⟩ := hentered hloops
        have hnil : l.cursors = [] := List.eq_nil_of_length_eq_zero (by omega)
        simp [action?, top?, hnil] at hnext
  · rcases Cursor.pair_of_concat hbelow hcur' with ⟨hbelow, hcur⟩ | ⟨hlast, rfl⟩
    · exact h.inner i below cur' ref hbelow hcur hloops hguard
    · obtain ⟨next, hnext, hsame⟩ := hentered hloops
      rw [action?, top?, hlast, Option.bind_some] at hnext
      exact hsame ref hguard ▸ hnext

end Guarded
end Lane

namespace Session
variable {c : Conversation} {hosted : List Nat} {s t : Session} {id : LaneId} {l l' : Lane} {e : Seconds}

theorem Alteration.guarded (h : s.Alteration l l') (hl : l.Guarded) : l'.Guarded := by
  cases h.reforms with
  | kept n f _ hshifts hcursors =>
    exact hl.trim n (fun cur => (hshifts cur).guard) (fun cur => (hshifts cur).looping) hcursors
  | rooted _ hcursors =>
    have hroot : (Lane.mk s.root?.toList true 0).Guarded := .of_fresh isFresh_root
    exact hroot.of_cursors hcursors
  | entered _ _ hnext hcursors => exact (hl.push hnext).of_cursors hcursors

theorem Grows.guarded (h : s.Grows l l') (hl : l.Guarded) : l'.Guarded := by
  induction h with
  | refl => exact hl
  | tail _ hchange ih => exact hchange.guarded ih

theorem Grown.guarded (h : s.Grown l) : l.Guarded := by
  cases h with
  | main h => exact Grows.guarded h (.of_fresh ⟨Nat.zero_le 1, by simp⟩)
  | topic h => exact Grows.guarded h (.of_fresh (isFresh_topicLane _ _))

/-! ### Broken loops -/

theorem isBroken_eq_true {cur : Cursor} (h : s.isBroken cur = true) :
    cur.looping = true ∧ ∃ ref, cur.guard = some ref := by
  obtain ⟨hloops, hfails⟩ := Bool.and_eq_true_iff.mp h
  obtain ⟨condition, hcondition, -⟩ := (Option.any_eq_true _ _).mp hfails
  obtain ⟨a, ha, -⟩ := Option.bind_eq_some_iff.mp hcondition
  obtain ⟨ref, href, -⟩ := Option.bind_eq_some_iff.mp ha
  exact ⟨hloops, ref, href⟩

/-- The outermost broken loop has been entered from the list around it, by the action that is next there. -/
theorem exists_wait {d : Nat} (h : l.Guarded) (hd : l.cursors.findIdx? s.isBroken = some d) :
    ∃ outer below broken inner wait, l.cursors = outer ++ below :: broken :: inner ∧ outer.length + 1 = d ∧
      below.action? = some wait ∧ broken.guard = some wait := by
  obtain ⟨hlt, hbroken, -⟩ := List.findIdx?_eq_some_iff_getElem.mp hd
  obtain ⟨hloops, wait, hwait⟩ := isBroken_eq_true hbroken
  have hat : l.cursors[d]? = some l.cursors[d] := List.getElem?_eq_getElem hlt
  cases d with
  | zero =>
    rw [h.root _ hat] at hloops
    cases hloops
  | succ k =>
    have hk : k < l.cursors.length := Nat.lt_of_succ_lt hlt
    have hbelow : l.cursors[k]? = some l.cursors[k] := List.getElem?_eq_getElem hk
    refine ⟨l.cursors.take k, l.cursors[k], l.cursors[k + 1], l.cursors.drop (k + 2), wait, ?_, ?_, ?_, hwait⟩
    · rw [List.getElem_cons_drop, List.getElem_cons_drop, List.take_append_drop]
    · rw [List.length_take, Nat.min_eq_left (Nat.le_of_lt hk)]
    · exact h.inner k _ _ wait hbelow hat hloops hwait

theorem isBroken_eq (hlists : SameLists s t) (hworld : t.world = s.world) : t.isBroken = s.isBroken := by
  funext cur
  rw [isBroken, isBroken, hlists.action?, hworld]

theorem changeLane_changeLane (f g : Lane → Lane) :
    (s.changeLane id f).changeLane id g = s.changeLane id (g ∘ f) := by
  cases id with
  | main => rfl
  | side n =>
    simp only [Session.changeLane, List.map_map]
    congr 2
    funext entry
    by_cases hm : entry.1 = n <;> simp [hm]

theorem record_changeLane (f : Lane → Lane) (event : Event) :
    (s.record event).changeLane id f = (s.changeLane id f).record event := by
  cases id <;> rfl

/-- The outermost broken loop is then the innermost list, and at its end. -/
theorem endBrokenLoop_of_some {outer inner : List Cursor} {below broken : Cursor} (hl : s.lane? id = some l)
    (hcursors : l.cursors = outer ++ below :: broken :: inner)
    (hd : l.cursors.findIdx? s.isBroken = some (outer.length + 1)) :
    (∃ f, s.endBrokenLoop id = (s.changeLane id f).record (.loopEnded id (outer.length + 1))) ∧
      (s.endBrokenLoop id).lane? id = some ⟨outer ++ [below] ++ [broken.release.forwardEnd], true, 0⟩ := by
  have hended : s.endBrokenLoop id =
      (s.changeLane id fun l => ((l.truncate (outer.length + 1 + 1)).changeAt (outer.length + 1) fun c =>
        c.release.forwardEnd).prime).record (.loopEnded id (outer.length + 1)) := by
    rw [endBrokenLoop, hl, Option.bind_some, hd]
  refine ⟨⟨_, hended⟩, ?_⟩
  have hlength : (outer ++ [below] ++ [broken]).length = max (outer.length + 1 + 1) 1 := by simp
  have htake : l.cursors.take (max (outer.length + 1 + 1) 1) = outer ++ [below] ++ [broken] := by
    have hleft : (outer ++ [below] ++ [broken] ++ inner).take (max (outer.length + 1 + 1) 1) =
        outer ++ [below] ++ [broken] := List.take_left' hlength
    rw [hcursors, ← hleft]
    simp
  have hdepth : outer.length + 1 = (outer ++ [below]).length := by simp
  have hlane : ((l.truncate (outer.length + 1 + 1)).changeAt (outer.length + 1) fun c => c.release.forwardEnd).prime =
      ⟨outer ++ [below] ++ [broken.release.forwardEnd], true, 0⟩ := by
    rw [Lane.truncate, Lane.changeAt, Lane.prime, htake, hdepth, modify_middle]
  rw [hended, lane?_record_changeLane hl, hlane]

/-- A pass that finds loops broken leaves the outermost one, goes on after the action that has entered it, and is
    over. -/
theorem pass_of_broken {outer inner : List Cursor} {below broken : Cursor} (hscript : s.hasScript)
    (hl : s.lane? id = some l) (hcursors : l.cursors = outer ++ below :: broken :: inner)
    (hd : l.cursors.findIdx? s.isBroken = some (outer.length + 1)) :
    s.pass id e = some (((s.changeLane id fun _ => ⟨outer ++ [below.advance], true, 0⟩).record
      (.loopEnded id (outer.length + 1))).record (.left id)) := by
  have hbegun : s.begun id = s := by
    refine if_neg ?_
    rintro ⟨rfl, hempty⟩
    obtain rfl : s.main = l := Option.some.inj hl
    rw [List.isEmpty_iff.mp hempty] at hcursors
    simp at hcursors
  obtain ⟨⟨f, hended⟩, hlane⟩ := endBrokenLoop_of_some hl hcursors hd
  have hopened : s.opened id = s.endBrokenLoop id := by rw [opened, hbegun]
  have hnext : (broken.release.forwardEnd).action? = none := Cursor.action?_forwardEnd
  have hgone : (s.endBrokenLoop id).advance id =
      ((s.changeLane id fun _ => ⟨outer ++ [below.advance], true, 0⟩).record
        (.loopEnded id (outer.length + 1))).record (.left id) := by
    have hscript' : (s.endBrokenLoop id).hasScript :=
      hopened ▸ (opened_touches s id).lists.hasScript.trans hscript
    have hadvance : (Lane.mk (outer ++ [below] ++ [broken.release.forwardEnd]) true 0).advance =
        (⟨outer ++ [below.advance], true, 0⟩, true) := by
      refine Lane.advance_of_none ?_
      rw [Cursor.advance_forwardEnd rfl, hnext]
    have hne : (outer ++ [below] ++ [broken.release.forwardEnd]).isEmpty = false := by simp
    rw [Session.advance, if_pos hscript', hlane]
    simp only [hne, Bool.false_eq_true, ↓reduceIte, hadvance]
    rw [hended, record_changeLane, changeLane_changeLane]
    rfl
  have haction : (Lane.mk (outer ++ [below] ++ [broken.release.forwardEnd]) true 0).action? = none :=
    Lane.action?_concat.trans hnext
  have hdeep : 1 < (Lane.mk (outer ++ [below] ++ [broken.release.forwardEnd]) true 0).depth := by
    rw [Lane.depth_concat, List.length_append]
    exact Nat.le_add_left 2 _
  rw [pass, patience, passWithin_succ, hopened, hlane]
  simp only [haction, Lane.top?_concat, hdeep, hgone]
  rfl

/-- An action is carried out only while no loop around it is broken. -/
theorem Carries.isBroken {ref : ActionRef} {a : Action ListId} {l' : Lane} (h : s.Carries id e l' ref a)
    (hl : s.lane? id = some l) (hguarded : l.Guarded) :
    ∀ cur ∈ l'.cursors, (s.carried id e l' ref a).isBroken cur = false := by
  obtain ⟨k, hk, hgrows⟩ := (begun_touches s id).lane l hl
  have hlists : SameLists (s.begun id) (s.carried id e l' ref a) := by
    obtain ⟨r, htouch, hcarried, -, -⟩ := carried_touches h
    exact hcarried ▸ (begun_touches s id).lists.symm.trans (htouch.lists.trans ⟨rfl, rfl, rfl⟩)
  have hsame : (s.carried id e l' ref a).isBroken = (s.begun id).isBroken :=
    isBroken_eq hlists ((Alike.carried (s := s)).world.trans Alike.begun.world.symm)
  rw [hsame]
  cases hd : k.cursors.findIdx? (s.begun id).isBroken with
  | none =>
    have hopened : s.opened id = s.begun id := by rw [opened, endBrokenLoop_of_none hk hd]
    obtain rfl : k = l' := Option.some.inj (hk.symm.trans (hopened ▸ h.lane))
    exact List.findIdx?_eq_none_iff.mp hd
  | some d =>
    -- The lane would be at the end of a list.
    obtain ⟨outer, below, broken, inner, wait, hcursors, rfl, -, -⟩ := exists_wait (hgrows.guarded hguarded) hd
    obtain ⟨-, hlane⟩ := endBrokenLoop_of_some hk hcursors hd
    obtain rfl := Option.some.inj (hlane.symm.trans h.lane)
    have hnext := Lane.action?_concat.symm.trans h.next
    rw [Cursor.action?_forwardEnd] at hnext
    cases hnext

theorem carries_of_acting {log : List Event} (hs : s.Numbered) (h : s.pass id e = some t)
    (hlog : t.events.toList = s.events.toList ++ log) (hacting : id ∈ log.filterMap Event.actingLane?) :
    ∃ l ref a, s.Carries id e l ref a := by
  by_cases hcarries : ∃ l ref a, s.Carries id e l ref a
  · exact hcarries
  have hidle : ∀ l ref a, ¬s.Carries id e l ref a := fun l ref a hc => hcarries ⟨l, ref, a, hc⟩
  obtain ⟨u, hrun, hidles⟩ := passWithin_of_idle hidle
  obtain rfl : u = t := Option.some.inj ((hrun _).symm.trans h)
  obtain ⟨log', hlog', hnone⟩ := (hidles.confined hs).1.log
  rw [List.append_cancel_left (hlog.symm.trans hlog'), hnone] at hacting
  cases hacting

/-- Loops with conditions on a lane that no host has built itself. A pass on a lane on which the conditions of some loops
    have failed leaves the outermost of these loops, goes on after the action that has started it, and does nothing
    else. Otherwise the pass goes on as if there were no conditions; so an action is carried out (`Carries`) only when
    the conditions of all loops around it hold. -/
theorem pass_guarded (hs : Arises c hosted s) (hid : ∀ n ∈ hosted, id ≠ .side n) (hscript : s.hasScript)
    (hl : s.lane? id = some l) :
    (∀ d, l.cursors.findIdx? s.isBroken = some d →
      ∃ outer below broken inner wait, l.cursors = outer ++ below :: broken :: inner ∧ outer.length + 1 = d ∧
        below.action? = some wait ∧ broken.guard = some wait ∧
        ∀ e, s.pass id e = some (((s.changeLane id fun _ => ⟨outer ++ [below.advance], true, 0⟩).record
          (.loopEnded id d)).record (.left id))) ∧
    (l.cursors.findIdx? s.isBroken = none → s.endBrokenLoop id = s) ∧
    (∀ e l' ref a, s.Carries id e l' ref a → ∀ cur ∈ l'.cursors, (s.carried id e l' ref a).isBroken cur = false) ∧
    ∀ e t log, s.pass id e = some t → t.events.toList = s.events.toList ++ log →
      id ∈ log.filterMap Event.actingLane? → ∃ l' ref a, s.Carries id e l' ref a := by
  have hguarded : l.Guarded := (hs.regular.grown id l hid hl).guarded
  refine ⟨fun d hd => ?_, fun hnone => ?_, fun e l' ref a hcarries => hcarries.isBroken hl hguarded,
    fun e t log hpass hlog hacting => carries_of_acting hs.regular.numbered hpass hlog hacting⟩
  · obtain ⟨outer, below, broken, inner, wait, hcursors, rfl, hwait, hguard⟩ := exists_wait hguarded hd
    exact ⟨outer, below, broken, inner, wait, hcursors, rfl, hwait, hguard,
      fun e => pass_of_broken hscript hl hcursors hd⟩
  · exact endBrokenLoop_of_none hl hnone

end Session

/-- A loop within a loop, both with conditions. -/
def Document.watch : Document where
  profiles := []
  values := .empty
  gameCommands := .empty
  files := [{
    id := "tale"
    topics := [
      { id := "watch"
        block := ⟨[
          { kind := .wait (some (.compareVariable "dawn" .eq ⟨0, none⟩)) ⟨[
            { kind := .wait (some (.compareVariable "calm" .eq ⟨0, none⟩)) ⟨[{ kind := .cue (.comment "listen") }]⟩ }]⟩ },
          { kind := .cue (.comment "at last") }]⟩ }] }]

/-- Both conditions have failed. -/
theorem pass_guarded_watch :
    ∃ c s l, Document.watch.load = .ok c ∧ Session.Arises c [] s ∧ s.hasScript ∧ s.lane? .main = some l ∧
      l.depth = 3 ∧ l.cursors.findIdx? s.isBroken = some 1 ∧
      ∃ outer below broken inner wait, l.cursors = outer ++ below :: broken :: inner ∧ outer.length + 1 = 1 ∧
        below.action? = some wait ∧ broken.guard = some wait ∧
        ∀ e, s.pass .main e = some (((s.changeLane .main fun _ => ⟨outer ++ [below.advance], true, 0⟩).record
          (.loopEnded .main 1)).record (.left .main)) := by
  have hplayed : ∃ c, Document.watch.load = .ok c ∧
      ((Session.start c (.scripted .zeros) {}).steps [.setTopic (some ⟨0⟩), .setRunning true, .update 1, .update 1,
        .world (.setVariable "dawn" 1), .world (.setVariable "calm" 1)]).any fun s =>
          s.hasScript && decide (s.main.depth = 3) && decide (s.main.cursors.findIdx? s.isBroken = some 1) :=
    ⟨_, rfl, by decide +kernel⟩
  obtain ⟨c, s, hc, harises, hall⟩ := Session.exists_arises (by simp) hplayed
  simp only [Bool.and_eq_true, decide_eq_true_eq] at hall
  obtain ⟨⟨hscript, hdepth⟩, hbroken⟩ := hall
  have hmain : s.lane? .main = some s.main := rfl
  obtain ⟨hleaves, -, -, -⟩ := Session.pass_guarded harises (by simp) hscript hmain
  exact ⟨c, s, s.main, hc, harises, hscript, hmain, hdepth, hbroken, hleaves 1 hbroken⟩

end Dialogue
