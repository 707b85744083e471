import Dialogue.Proofs.Answering

/-! Choices that have nothing to offer. Such a choice enters the list that would play while the player is asked, and then
    its lane goes on, but from within that list. So the choice is passed over only if that list is empty; otherwise the
    lane plays it over and over (`ask_passed_over_iff`). -/

namespace Dialogue

/-- Where a list that starts over goes on from its first action. -/
theorem Cursor.advance_of_looping {c : Cursor} (hloops : c.looping = true) (hfirst : c.next = 0) :
    c.advance = c.goTo (if c.length ≤ 1 then 0 else 1) := by
  simp only [Cursor.advance, hloops, hfirst, true_and]
  congr 1
  split <;> split <;> omega

namespace Session
variable {s : Session} {id : LaneId} {l : Lane} {e : Seconds} {outer : List Cursor} {top : Cursor}
variable {answers : List (Answer ListId)} {ref : ActionRef} {meanwhile : ListId}

/-- Nothing is offered when every answer has a condition that does not hold. -/
theorem offered_eq_nil_iff {w : World} : offered w answers = [] ↔
    ∀ said ∈ answers, ∃ condition, said.condition = some condition ∧ condition.holds w = false := by
  have hmem : ∀ said ∈ answers, ∃ i, (said, i) ∈ answers.zipIdx := fun said hsaid => by
    obtain ⟨i, hi, rfl⟩ := List.getElem_of_mem hsaid
    exact ⟨i, List.mk_mem_zipIdx_iff_getElem?.mpr (List.getElem?_eq_getElem hi)⟩
  rw [offered, List.map_eq_nil_iff, List.filter_eq_nil_iff]
  constructor
  · intro h said hsaid
    obtain ⟨i, hi⟩ := hmem said hsaid
    have hshut := h _ hi
    cases hcondition : said.condition with
    | none => simp [hcondition] at hshut
    | some condition => exact ⟨condition, rfl, by simpa [hcondition] using hshut⟩
  · rintro h ⟨said, i⟩ hsaid
    obtain ⟨condition, hcondition, hfails⟩ := h said (List.fst_mem_of_mem_zipIdx hsaid)
    simp [hcondition, hfails]

/-- The list that plays while `ref` asks. -/
def meanwhileCursor (s : Session) (ref : ActionRef) (meanwhile : ListId) : Cursor :=
  { s.cursor (.script meanwhile) with parent := some ref, looping := true }

theorem action?_meanwhileCursor :
    (s.meanwhileCursor ref meanwhile).advance.action? = none ↔ s.conversation.list meanwhile = [] := by
  have hlength : (s.meanwhileCursor ref meanwhile).length = (s.conversation.list meanwhile).length := rfl
  rw [Cursor.advance_of_looping rfl rfl, Cursor.action?_eq_none_iff, ← List.length_eq_zero_iff]
  simp only [Cursor.length_goTo, Cursor.next_goTo, hlength]
  split <;> omega

/-- An action that has nothing to offer goes on, but from within the list that would have played meanwhile. -/
theorem ask_lane (ref : ActionRef) (meanwhile : ListId) (hscript : s.hasScript) (hl : s.lane? id = some l)
    (hcursors : l.cursors = outer ++ [top]) (hnone : offered s.world answers = []) :
    (s.ask id ref answers meanwhile).choice = none ∧
      (s.ask id ref answers meanwhile).lane? id =
        if s.conversation.list meanwhile = [] then some ⟨outer ++ [top.advance], true, 0⟩
        else some ⟨outer ++ [top, (s.meanwhileCursor ref meanwhile).advance], true, 0⟩ := by
  let entered : Session := { s.enter id (s.meanwhileCursor ref meanwhile) with choice := none }
  have hask : s.ask id ref answers meanwhile = entered.advance id := by
    rcases ask_cases s id ref answers meanwhile with ⟨-, hask⟩ | ⟨k, -, -, -, hoffers, -⟩
    · exact hask
    · exact absurd (hoffers.trans hnone) k.offers_ne
  have hspared : SameLists s entered := by cases id <;> exact ⟨rfl, rfl, rfl⟩
  have hlane : entered.lane? id = some ⟨outer ++ [top] ++ [s.meanwhileCursor ref meanwhile], true, 0⟩ := by
    have hpushed := lane?_enter hl (s.meanwhileCursor ref meanwhile)
    rw [Lane.push, Lane.prime, hcursors] at hpushed
    rw [← hpushed]
    cases id <;> rfl
  rw [hask, advance_of_ne_nil (hspared.hasScript.trans hscript) hlane (by simp)]
  by_cases hempty : s.conversation.list meanwhile = []
  · have hend : (s.meanwhileCursor ref meanwhile).advance.action? = none := action?_meanwhileCursor.mpr hempty
    rw [Lane.advance_of_none hend, if_pos hempty, if_pos rfl, lane?_record_changeLane hlane]
    exact ⟨by cases id <;> rfl, rfl⟩
  · have hnext : (s.meanwhileCursor ref meanwhile).advance.action?.isSome :=
      Option.isSome_iff_ne_none.mpr fun hend => hempty (action?_meanwhileCursor.mp hend)
    rw [Lane.advance_of_some hnext, if_neg hempty, if_neg Bool.false_ne_true, lane?_changeLane_self, hlane]
    exact ⟨by cases id <;> rfl, by simp⟩

/-- A choice all of whose answers have a condition that does not hold is passed over exactly if there is nothing to play
    meanwhile. Otherwise the lane is inside the list that would have played, which starts over at its end, and there is
    nothing that can be selected. -/
theorem ask_passed_over_iff {a : Action ListId} {name? : Option String}
    (hscript : s.hasScript) (hscripted : ∃ chance, s.interpreter = .scripted chance) (hcarries : s.Carries id e l ref a)
    (hcursors : l.cursors = outer ++ [top]) (hkind : a.kind = .choice answers meanwhile name?)
    (hclosed : ∀ said ∈ answers, ∃ condition, said.condition = some condition ∧ condition.holds s.world = false) :
    ∃ t, s.pass id e = some t ∧ t.choice = none ∧ (∀ i, t.select i = (t, false)) ∧
      (t.lane? id = some ⟨outer ++ [top.advance], true, 0⟩ ↔ s.conversation.list meanwhile = []) ∧
      (s.conversation.list meanwhile ≠ [] → t.lane? id = some ⟨outer ++ [top,
        (s.meanwhileCursor ref meanwhile).goTo
          (if (s.conversation.list meanwhile).length ≤ 1 then 0 else 1)], true, 0⟩) := by
  obtain ⟨chance, hchance⟩ := hscripted
  obtain ⟨q, htouch, hnoted, hq, -⟩ := carried_touches hcarries
  have halike : Alike s (s.carried id e l ref a) := .carried
  rw [hnoted] at halike
  let r := q.note id ref a (some { topic := l.topic?, action := ref })
  have hlists : SameLists s r := htouch.lists.trans ⟨rfl, rfl, rfl⟩
  have hr : r.lane? id = some { l with waiting := false, time := l.time + e } := by
    rw [← hq]
    cases id <;> rfl
  have hpass : s.pass id e = some ((r.ask id ref answers meanwhile).changeLane id Lane.prime) := by
    rw [pass_of_choice hcarries hchance hkind, hnoted]
  obtain ⟨hchoice, hlane⟩ := ask_lane ref meanwhile (hlists.hasScript.trans hscript) hr hcursors
    (halike.world ▸ offered_eq_nil_iff.mpr hclosed)
  rw [hlists.conversation] at hlane
  have hcursor : r.meanwhileCursor ref meanwhile = s.meanwhileCursor ref meanwhile := by
    rw [meanwhileCursor, meanwhileCursor, hlists.cursor]
  have hchoice' : ((r.ask id ref answers meanwhile).changeLane id Lane.prime).choice = none := by
    rw [← hchoice]
    cases id <;> rfl
  refine ⟨_, hpass, hchoice', fun i => by simp only [select, hchoice'], ?_, fun hbody => ?_⟩
  · rw [lane?_changeLane_self, hlane]
    split <;> simp_all [Lane.prime]
  · rw [lane?_changeLane_self, hlane, if_neg hbody, hcursor, Cursor.advance_of_looping rfl rfl]
    rfl

end Session

/-- A choice with one answer, which is not offered. -/
def Document.gate : Document where
  profiles := []
  values := .empty
  gameCommands := .empty
  files := [{
    id := "tale"
    topics := [
      { id := "gate"
        block := ⟨[
          { kind := .choice [⟨"pay", some (.compareVariable "coins" .eq ⟨1, none⟩), ⟨[]⟩⟩]
              ⟨[{ kind := .cue (.comment "wait") }, { kind := .cue (.comment "wait on") }]⟩ none },
          { kind := .cue (.comment "pass") }]⟩ }] }]

/-- The choice is carried out in the first pass. -/
theorem exists_gate :
    ∃ c s l ref a answers meanwhile name? top t, Document.gate.load = .ok c ∧
      (Session.start c (.scripted .zeros) {}).steps [.setTopic (some ⟨0⟩), .setRunning true] = some s ∧ s.hasScript ∧
      (∃ chance, s.interpreter = .scripted chance) ∧ s.Carries .main 1 l ref a ∧ l.cursors = [top] ∧
      a.kind = .choice answers meanwhile name? ∧
      (∀ said ∈ answers, ∃ condition, said.condition = some condition ∧ condition.holds s.world = false) ∧
      s.conversation.list meanwhile ≠ [] ∧ s.pass .main 1 = some t ∧ t.main.depth = 2 := by
  have hplayed : ∃ c, Document.gate.load = .ok c ∧
      ((Session.start c (.scripted .zeros) {}).steps [.setTopic (some ⟨0⟩), .setRunning true]).any fun s =>
        s.hasScript && s.interpreter.isScripted && ((s.carrying? .main 1).any fun x =>
          decide (x.1.cursors.length = 1) && x.2.2.kind.asked?.any fun asked =>
            decide (Session.offered s.world asked.1 = []) && !(s.conversation.list asked.2.1).isEmpty) &&
          (s.pass .main 1).any fun t => decide (t.main.depth = 2) :=
    ⟨_, rfl, by decide +kernel⟩
  obtain ⟨c, hc, hplayed⟩ := hplayed
  obtain ⟨s, hs, hall⟩ := (Option.any_eq_true _ _).mp hplayed
  simp only [Bool.and_eq_true, Option.any_eq_true, decide_eq_true_eq, Bool.not_eq_true',
    List.isEmpty_eq_false_iff] at hall
  obtain ⟨⟨⟨hscript, hscripted⟩, ⟨l, ref, a⟩, hcarries, hlength, ⟨answers, meanwhile, name?⟩, hasked, hnone, hbody⟩, t,
    ht, hdepth⟩ := hall
  obtain ⟨top, htop⟩ := List.length_eq_one_iff.mp hlength
  exact ⟨c, s, l, ref, a, answers, meanwhile, name?, top, t, hc, hs, hscript, Interpreter.isScripted_iff.mp hscripted,
    Session.carries_iff.mpr hcarries, htop, Kind.asked?_eq_some.mp hasked, Session.offered_eq_nil_iff.mp hnone, hbody,
    ht, hdepth⟩

/-- What would play meanwhile plays though nobody is asked. -/
theorem ask_passed_over_iff_gate :
    ∃ c s l ref a top layer t, Document.gate.load = .ok c ∧
      (Session.start c (.scripted .zeros) {}).steps [.setTopic (some ⟨0⟩), .setRunning true] = some s ∧
      s.Carries .main 1 l ref a ∧ l.cursors = [top] ∧ s.pass .main 1 = some t ∧ t.choice = none ∧
      (∀ i, t.select i = (t, false)) ∧ t.lane? .main = some ⟨[top, layer], true, 0⟩ ∧ layer.looping = true := by
  obtain ⟨c, s, l, ref, a, answers, meanwhile, name?, top, -, hc, hs, hscript, hscripted, hcarries, htop, hkind, hclosed,
    hbody, -, -⟩ := exists_gate
  have htop' : l.cursors = [] ++ [top] := htop
  obtain ⟨t, ht, hnone, hselect, -, hplays⟩ :=
    Session.ask_passed_over_iff hscript hscripted hcarries htop' hkind hclosed
  exact ⟨c, s, l, ref, a, top, _, t, hc, hs, hcarries, htop, ht, hnone, hselect, hplays hbody, rfl⟩

/-- A choice with nothing to offer is not passed over: the lane is inside the list that would have played meanwhile. -/
theorem ask_not_passed_over_gate :
    ∃ c s l ref a answers meanwhile name? top t, Document.gate.load = .ok c ∧
      (Session.start c (.scripted .zeros) {}).steps [.setTopic (some ⟨0⟩), .setRunning true] = some s ∧ s.hasScript ∧
      s.Carries .main 1 l ref a ∧ l.cursors = [top] ∧ a.kind = .choice answers meanwhile name? ∧
      (∀ said ∈ answers, ∃ condition, said.condition = some condition ∧ condition.holds s.world = false) ∧
      s.pass .main 1 = some t ∧ t.main.cursors ≠ [top.advance] := by
  obtain ⟨c, s, l, ref, a, answers, meanwhile, name?, top, t, hc, hs, hscript, -, hcarries, htop, hkind, hclosed, -, ht,
    hdepth⟩ := exists_gate
  refine ⟨c, s, l, ref, a, answers, meanwhile, name?, top, t, hc, hs, hscript, hcarries, htop, hkind, hclosed, ht, ?_⟩
  intro hpassed
  rw [Lane.depth, hpassed] at hdepth
  cases hdepth

end Dialogue
