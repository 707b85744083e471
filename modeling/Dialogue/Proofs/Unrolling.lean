import Dialogue.Proofs.Settling

/-! Performances frame by frame. On a lane's cursors a frame leaves a list that is at its end, or ends the outermost
    loop that is over, or carries out an action, which may enter a list (`Moves`). Every performance is unrolled into
    such frames: wherever its part is entered, the cursors come to the end of the part, or a loop around it is found
    to be over (`Performs.unrolled`). -/

namespace Dialogue
namespace Conversation

/-! ### Frames -/

section
variable (c : Conversation)

/-- A cursor at the start of a list. -/
def cursor (l : ListId) : Cursor := { list := .script l, length := (c.list l).length }

/-- A cursor at the start of the list that an action enters, if it enters one. -/
def entered? (w : World) (ref : ActionRef) (a : Action ListId) : Option Cursor :=
  match a.kind with
  | .cue (.snippet file topic false) =>
    (c.findTopic? file topic).bind fun t =>
      (c.topic? t).map fun found => { c.cursor found.root with topic := some t, parent := some ref }
  | .ifElse cases otherwise =>
    if (c.list (chosen w cases otherwise)).isEmpty then none
    else some { c.cursor (chosen w cases otherwise) with parent := some ref }
  | .wait (some _) body => some { c.cursor body with parent := some ref, guard := some ref, looping := true }
  | _ => none

/-- The cursors of a lane when an action has been carried out. -/
def after (w : World) (ref : ActionRef) (a : Action ListId) (cursors : List Cursor) : List Cursor :=
  match c.entered? w ref a with
  | some cur => cursors ++ [cur]
  | none => (Lane.mk cursors true 0).advance.1.cursors

/-- `Moves cursors w trace cursors' v`: what a frame does, with the actions that it carries out, one at most. -/
inductive Moves : List Cursor → World → List ActionRef → List Cursor → World → Prop where
  /-- A list that is at its end is left. -/
  | leave {outer below top w} (hfail : w.failed? (c.loops (outer ++ [below] ++ [top])) = none) (hover : top.IsOver) :
      Moves (outer ++ [below] ++ [top]) w [] (outer ++ [below.advance]) w
  /-- A loop is over and left. -/
  | close {cursors outer below top w k} (hfail : w.failed? (c.loops cursors) = some k)
      (hend : c.endLoop k cursors = outer ++ [below] ++ [top]) (hover : top.IsOver) :
      Moves cursors w [] (outer ++ [below.advance]) w
  /-- An action is carried out. -/
  | act {outer top w ref a v part?} (hfail : w.failed? (c.loops (outer ++ [top])) = none)
      (hact : top.action? = some ref) (ha : c.lookup? ref = some a) (heffect : c.effect? w a = some (v, part?)) :
      Moves (outer ++ [top]) w [ref] (c.after w ref a (outer ++ [top])) v

/-- A number of frames. -/
inductive Plays : List Cursor → World → List ActionRef → List Cursor → World → Prop where
  | rest {cursors w} : Plays cursors w [] cursors w
  | frame {cursors w trace cursors' v rest cursors'' u} (hmove : c.Moves cursors w trace cursors' v)
      (hplays : Plays cursors' v rest cursors'' u) : Plays cursors w (trace ++ rest) cursors'' u

end

variable {c : Conversation} {w v u : World} {cursors cursors' cursors'' outer : List Cursor} {below cur : Cursor}
variable {trace rest : List ActionRef} {k : Nat}

theorem Moves.plays (h : c.Moves cursors w trace cursors' v) : c.Plays cursors w trace cursors' v := by
  have hframe := Plays.frame h .rest
  rwa [List.append_nil] at hframe

theorem Plays.trans (h : c.Plays cursors w trace cursors' v) (hrest : c.Plays cursors' v rest cursors'' u) :
    c.Plays cursors w (trace ++ rest) cursors'' u := by
  induction h with
  | rest => exact hrest
  | frame hmove _ ih =>
    rw [List.append_assoc]
    exact .frame hmove (ih hrest)

theorem plays_settled :
    ∀ cursors, cursors ≠ [] → w.failed? (c.loops cursors) = none → c.Plays cursors w [] (settled cursors) w := by
  refine settled_induction (fun top _ => ?_) (fun outer below top hover ih hfail => ?_) (fun outer top hstay _ => ?_)
  · rw [settled_singleton]
    exact .rest
  · have hsame : c.loops (outer ++ [below.advance]) = c.loops (outer ++ [below] ++ [top]) := by
      rw [loops_concat_of_none (outer ++ [below]) (loopOf?_of_over hover), loops_append, loops_append]
      rfl
    rw [settled_concat_over hover]
    exact .frame (.leave hfail hover) (ih (hsame ▸ hfail))
  · rw [settled_concat_of_not_over hstay]
    exact .rest

/-- A loop is over, and the cursors around it go on. -/
theorem plays_of_failed {condition : Condition} (hloop : c.loopOf? cur = some condition)
    (hfail : w.failed? (c.loops cursors) = some (c.loops (outer ++ [below])).length)
    (hend : c.endLoop (c.loops (outer ++ [below])).length cursors =
      c.endLoop (c.loops (outer ++ [below])).length (outer ++ [below] ++ [cur])) :
    c.Plays cursors w [] (outer ++ [below.advance]) w := by
  refine (Moves.close hfail (hend.trans (endLoop_concat (by simp [hloop]))) ?_).plays
  exact ⟨Cursor.action?_forwardEnd, rfl⟩

/-! ### Entering a part -/

/-- The cursor goes through a list. -/
def Reads (c : Conversation) (cur : Cursor) (l : ListId) : Prop :=
  cur.list = .script l ∧ cur.length = (c.list l).length

/-- The cursors of a lane stand before a part that the action at `below` has entered. -/
def Stands (c : Conversation) (outer : List Cursor) (below : Cursor) (cursors : List Cursor) : Part → Prop
  | .list l i =>
    ∃ cur, c.Reads cur l ∧ i ≤ cur.length ∧ cur.looping = false ∧
      settled cursors = settled (outer ++ [below] ++ [cur.before i])
  | .loop condition body =>
    ∃ cur, c.Reads cur body ∧ c.loopOf? cur = some condition ∧
      settled cursors = settled (outer ++ [below] ++ [cur.before 0])

theorem Reads.action? {l : ListId} {i : Nat} {a : Action ListId} (h : c.Reads cur l) (ha : c.action? l i = some a) :
    i < cur.length ∧ (cur.before i).action? = some ⟨.script l, i⟩ := by
  have hi : i < cur.length := h.2 ▸ (List.getElem?_eq_some_iff.mp ha).1
  exact ⟨hi, h.1 ▸ Cursor.action?_before hi⟩

theorem topic?_of_findTopic? {file : Option String} {topic : String} {t : TopicId}
    (h : c.findTopic? file topic = some t) : ∃ found, c.topic? t = some found := by
  simp only [findTopic?, Option.map_eq_map, Option.map_eq_some_iff] at h
  obtain ⟨i, hi, rfl⟩ := h
  exact ⟨_, List.getElem?_eq_getElem (List.findIdx?_eq_some_iff_getElem.mp hi).1⟩

theorem settled_after (outer : List Cursor) {ref : ActionRef} {a : Action ListId} (hact : below.action? = some ref)
    (heffect : c.effect? w a = some (v, none)) :
    settled (c.after w ref a (outer ++ [below])) = settled (outer ++ [below.advance]) := by
  have hnone : c.entered? w ref a = none := by
    unfold effect? at heffect
    split at heffect <;> rename_i hkind <;> simp only [entered?, hkind]
    case h_4 file topic =>
      -- A topic that is not found.
      cases hfound : c.findTopic? file topic with
      | none => rfl
      | some t =>
        obtain ⟨found, ht⟩ := topic?_of_findTopic? hfound
        simp [hfound, ht] at heffect
    all_goals simp at heffect
  rw [after, hnone]
  exact settled_advance hact

theorem stands_after (outer : List Cursor) {ref : ActionRef} {a : Action ListId} {part : Part}
    (hact : below.action? = some ref) (ha : c.lookup? ref = some a) (heffect : c.effect? w a = some (v, some part)) :
    c.Stands outer below (c.after w ref a (outer ++ [below])) part := by
  unfold effect? at heffect
  split at heffect <;> rename_i hkind
  case h_3 => simp at heffect
  case h_4 file topic =>
    cases hfound : c.findTopic? file topic with
    | none => simp [hfound] at heffect
    | some t =>
      obtain ⟨found, ht⟩ := topic?_of_findTopic? hfound
      obtain ⟨rfl, rfl⟩ : w = v ∧ Part.list found.root 0 = part := by simpa [hfound, ht] using heffect
      refine ⟨{ c.cursor found.root with topic := some t, parent := some ref }, ⟨rfl, rfl⟩, Nat.zero_le _, rfl, ?_⟩
      rw [Cursor.before_zero rfl]
      simp [after, entered?, hkind, hfound, ht, cursor]
  case h_5 cases otherwise =>
    obtain ⟨rfl, rfl⟩ : w = v ∧ Part.list (chosen w cases otherwise) 0 = part := by simpa using heffect
    refine ⟨{ c.cursor (chosen w cases otherwise) with parent := some ref }, ⟨rfl, rfl⟩, Nat.zero_le _, rfl, ?_⟩
    by_cases hempty : (c.list (chosen w cases otherwise)).isEmpty
    · -- The lane goes on at once, as it would at the end of the list.
      have hnone : c.entered? w ref a = none := by simp [entered?, hkind, hempty]
      rw [after, hnone, settled_concat_over, settled_advance hact]
      simp [Cursor.IsOver, Cursor.before, Cursor.goTo, ListRef.action?, cursor, List.isEmpty_iff.mp hempty]
    · rw [Cursor.before_zero rfl]
      simp [after, entered?, hkind, hempty, cursor]
  case h_7 condition body =>
    obtain ⟨rfl, rfl⟩ : w = v ∧ Part.loop condition body = part := by simpa using heffect
    refine ⟨{ c.cursor body with parent := some ref, guard := some ref, looping := true }, ⟨rfl, rfl⟩, ?_, ?_⟩
    · simp [loopOf?, ha, Action.guard?, hkind]
    · rw [Cursor.before_zero rfl]
      simp [after, entered?, hkind, cursor]
  all_goals simp at heffect

/-! ### Unrolling -/

theorem lt_of_failed? {loops : List Condition} (h : w.failed? loops = some k) : k < loops.length :=
  (List.findIdx?_eq_some_iff_getElem.mp h).1

/-- How the cursors come out of a part: at its end, or with a loop that is over among the cursors around the part. -/
def Comes (c : Conversation) (v : World) (around goal cursors : List Cursor) : Ending → Prop
  | .complete => settled cursors = settled goal
  | .broken k =>
    k < (c.loops around).length ∧ v.failed? (c.loops cursors) = some k ∧ c.endLoop k cursors = c.endLoop k around

/-- Wherever the part is entered, frames carry out the actions and come out of it. -/
def Unrolled (c : Conversation) (loops : List Condition) (w : World) (trace : List ActionRef) (v : World)
    (ending : Ending) : Part → Prop
  | .list l i =>
    ∀ {outer cur cursors}, c.Reads cur l → i ≤ cur.length → c.loops (outer ++ [cur]) = loops →
      settled cursors = settled (outer ++ [cur.before i]) →
      ∃ cursors', c.Plays cursors w trace cursors' v ∧
        c.Comes v (outer ++ [cur]) (outer ++ [cur.before cur.length]) cursors' ending
  | .loop condition body =>
    ∀ {outer below cursors}, c.loops (outer ++ [below]) = loops → c.Stands outer below cursors (.loop condition body) →
      ∃ cursors', c.Plays cursors w trace cursors' v ∧
        c.Comes v (outer ++ [below]) (outer ++ [below.advance]) cursors' ending

variable {loops : List Condition} {ending : Ending}

theorem Unrolled.within {part : Part} (h : c.Unrolled loops w trace v ending part)
    (hloops : c.loops (outer ++ [below]) = loops) (hstands : c.Stands outer below cursors part) :
    ∃ cursors', c.Plays cursors w trace cursors' v ∧
      c.Comes v (outer ++ [below]) (outer ++ [below.advance]) cursors' ending := by
  cases part with
  | loop condition body => exact h hloops hstands
  | list l i =>
    obtain ⟨cur, hreads, hi, hlooping, hsettled⟩ := hstands
    have hnone : c.loopOf? cur = none := by simp [loopOf?, hlooping]
    obtain ⟨cursors', hplays, hcomes⟩ := h hreads hi ((loops_concat_of_none _ hnone).trans hloops) hsettled
    refine ⟨cursors', hplays, ?_⟩
    cases ending with
    | complete => exact hcomes.trans (settled_concat_over (Cursor.isOver_before hlooping))
    | broken k =>
      obtain ⟨hk, hfail, hend⟩ := hcomes
      rw [loops_concat_of_none _ hnone] at hk
      exact ⟨hk, hfail, hend.trans (endLoop_append _ hk)⟩

/-- In settled cursors the next action of a list is carried out. -/
theorem plays_action {l : ListId} {i : Nat} {a : Action ListId} {part? : Option Part} (hreads : c.Reads cur l)
    (ha : c.action? l i = some a) (hloops : c.loops (outer ++ [cur]) = loops) (hfail : w.failed? loops = none)
    (hsettled : settled cursors = settled (outer ++ [cur.before i])) (heffect : c.effect? w a = some (v, part?)) :
    c.Plays cursors w [⟨.script l, i⟩] (c.after w ⟨.script l, i⟩ a (outer ++ [cur.before i])) v := by
  obtain ⟨hi, hact⟩ := hreads.action? ha
  have hbefore : c.loops (outer ++ [cur.before i]) = loops := loops_before.trans hloops
  have hstay : ¬(cur.before i).IsOver := fun hover => by simp [hover.1] at hact
  have hsettle := plays_settled cursors (ne_nil_of_settled hsettled) (by rwa [loops_of_settled hsettled, hbefore])
  rw [hsettled, settled_concat_of_not_over hstay] at hsettle
  exact hsettle.trans (Moves.act (hbefore ▸ hfail) hact ha heffect).plays

/-- When a loop is over that has been entered from `below`, or one around it, the cursors come out of it. -/
theorem comes_of_failed {condition : Condition} (hloop : c.loopOf? cur = some condition)
    (hfail : w.failed? (c.loops cursors) = some k) (hk : k < (c.loops (outer ++ [below] ++ [cur])).length)
    (hend : c.endLoop k cursors = c.endLoop k (outer ++ [below] ++ [cur])) :
    ∃ cursors', c.Plays cursors w [] cursors' w ∧ c.Comes w (outer ++ [below]) (outer ++ [below.advance]) cursors'
      (.ofLoop (c.loops (outer ++ [below])).length k) := by
  by_cases hown : k = (c.loops (outer ++ [below])).length
  · subst hown
    exact ⟨_, plays_of_failed hloop hfail hend, by simp [Ending.ofLoop, Comes]⟩
  · rw [loops_concat_of_some hloop, List.length_append, List.length_singleton] at hk
    have hk : k < (c.loops (outer ++ [below])).length := by omega
    refine ⟨cursors, .rest, ?_⟩
    rw [Ending.ofLoop, if_neg hown]
    exact ⟨hk, hfail, hend.trans (endLoop_append _ hk)⟩

/-- Every performance is unrolled. -/
theorem Performs.unrolled {part : Part} (h : c.Performs loops w part trace v ending) :
    c.Unrolled loops w trace v ending part := by
  induction h with
  | @atEnd loops w l i hend =>
    intro outer cur cursors hreads hi hloops hsettled
    obtain rfl : i = cur.length := by
      have hlen := List.getElem?_eq_none_iff.mp hend
      have heq := hreads.2
      omega
    exact ⟨cursors, .rest, hsettled⟩
  | @stopped loops w l i a k ha hfail =>
    intro outer cur cursors hreads hi hloops hsettled
    have hbefore : c.loops (outer ++ [cur.before i]) = loops := loops_before.trans hloops
    have hk : k < (c.loops (outer ++ [cur])).length := hloops ▸ lt_of_failed? hfail
    refine ⟨cursors, .rest, hk, by rwa [loops_of_settled hsettled, hbefore], ?_⟩
    rw [endLoop_of_settled hsettled (by rwa [hbefore, ← hloops])]
    exact endLoop_concat_congr rfl rfl hk
  | @simple loops w l i a v trace u ending ha hfail heffect _ ih =>
    intro outer cur cursors hreads hi hloops hsettled
    obtain ⟨hi, hact⟩ := hreads.action? ha
    have hplays := plays_action hreads ha hloops hfail hsettled heffect
    have hafter := settled_after outer hact heffect
    rw [Cursor.before_advance hi] at hafter
    obtain ⟨cursors', hrest, hcomes⟩ := ih hreads hi hloops hafter
    exact ⟨cursors', hplays.trans hrest, hcomes⟩
  | @nested loops w l i a v part inner u trace x ending ha hfail heffect _ _ ihpart ihrest =>
    intro outer cur cursors hreads hi hloops hsettled
    obtain ⟨hi, hact⟩ := hreads.action? ha
    have hplays := plays_action hreads ha hloops hfail hsettled heffect
    have hstands := stands_after outer hact ha heffect
    obtain ⟨between, hwithin, hsettled⟩ := ihpart.within (loops_before.trans hloops) hstands
    rw [Cursor.before_advance hi] at hsettled
    obtain ⟨cursors', hrest, hcomes⟩ := ihrest hreads hi hloops hsettled
    exact ⟨cursors', hplays.trans (hwithin.trans hrest), hcomes⟩
  | @cut loops w l i a v part inner u k ha hfail heffect _ ih =>
    intro outer cur cursors hreads hi hloops hsettled
    have hact := (hreads.action? ha).2
    have hplays := plays_action hreads ha hloops hfail hsettled heffect
    have hstands := stands_after outer hact ha heffect
    obtain ⟨cursors', hwithin, hk, hfailed, hend⟩ := ih.within (loops_before.trans hloops) hstands
    rw [loops_before] at hk
    exact ⟨cursors', hplays.trans hwithin, hk, hfailed, hend.trans (endLoop_concat_congr rfl rfl hk)⟩
  | @closed loops w condition body k hfail =>
    intro outer below cursors hloops hstands
    obtain ⟨cur, -, hloop, hsettled⟩ := hstands
    have hinner : c.loops (outer ++ [below] ++ [cur.before 0]) = loops ++ [condition] := by
      rw [loops_before, loops_concat_of_some hloop, hloops]
    have hfailed : w.failed? (c.loops cursors) = some k := by rwa [loops_of_settled hsettled, hinner]
    have hk : k < (c.loops (outer ++ [below] ++ [cur.before 0])).length := hinner ▸ lt_of_failed? hfail
    have hloop : c.loopOf? (cur.before 0) = some condition := hloop
    rw [← hloops]
    exact comes_of_failed hloop hfailed hk (endLoop_of_settled hsettled hk)
  | @again loops w condition body trace v rest u ending hfail _ _ ihbody ihloop =>
    intro outer below cursors hloops hstands
    obtain ⟨cur, hreads, hloop, hsettled⟩ := hstands
    have hinner : c.loops (outer ++ [below] ++ [cur]) = loops ++ [condition] := by
      rw [loops_concat_of_some hloop, hloops]
    obtain ⟨between, hbody, hsettled⟩ := ihbody hreads (Nat.zero_le _) hinner hsettled
    rw [Cursor.before_of_looping (looping_of_loopOf? hloop)] at hsettled
    obtain ⟨cursors', hrest, hcomes⟩ := ihloop hloops ⟨cur, hreads, hloop, hsettled⟩
    exact ⟨cursors', hbody.trans hrest, hcomes⟩
  | @left loops w condition body trace v k hfail _ ih =>
    intro outer below cursors hloops hstands
    obtain ⟨cur, hreads, hloop, hsettled⟩ := hstands
    have hinner : c.loops (outer ++ [below] ++ [cur]) = loops ++ [condition] := by
      rw [loops_concat_of_some hloop, hloops]
    obtain ⟨between, hbody, hk, hfailed, hend⟩ := ih hreads (Nat.zero_le _) hinner hsettled
    obtain ⟨cursors', hover, hcomes⟩ := comes_of_failed hloop hfailed hk hend
    rw [hloops] at hcomes
    exact ⟨cursors', List.append_nil trace ▸ hbody.trans hover, hcomes⟩

/-- A list that nothing surrounds is played to its end. -/
theorem Performs.plays {l : ListId} (h : c.Performs [] w (.list l 0) trace v .complete) (hreads : c.Reads cur l)
    (hlooping : cur.looping = false) : c.Plays [cur.before 0] w trace [cur.before cur.length] v := by
  have hloops : c.loops ([] ++ [cur]) = [] := by simp [loops, loopOf?, hlooping]
  obtain ⟨cursors', hplays, hsettled⟩ := h.unrolled hreads (Nat.zero_le _) hloops rfl
  have hsettle := plays_settled (c := c) (w := v) cursors' (ne_nil_of_settled hsettled) (by
    rw [loops_of_settled hsettled, loops_before, hloops]
    rfl)
  rw [hsettled, List.nil_append, settled_singleton] at hsettle
  exact List.append_nil trace ▸ hplays.trans hsettle

end Conversation
end Dialogue
