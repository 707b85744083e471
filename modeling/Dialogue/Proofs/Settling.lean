import Dialogue.Proofs.Lanes
import Dialogue.Proofs.Performance

/-! Cursors while a script is played. A list that is at its end is left in a frame of its own, so cursors that differ
    only by such lists stand for the same place (`settled`). Among the cursors the loops are found again, with their
    conditions (`loops`). -/

namespace Dialogue

/-! ### Leaving lists that are at their end -/

namespace Cursor

/-- The list is at its end and does not start over. -/
def IsOver (c : Cursor) : Prop := c.action? = none ∧ c.looping = false

instance (c : Cursor) : Decidable c.IsOver := inferInstanceAs (Decidable (_ ∧ _))

/-- The cursor before the action of that index. The end of a loop is its start. -/
def before (c : Cursor) (i : Nat) : Cursor := c.goTo (if c.looping ∧ c.length ≤ i then 0 else i)

theorem before_advance {c : Cursor} {i : Nat} (h : i < c.length) : (c.before i).advance = c.before (i + 1) := by
  have hwithin : ¬(c.looping = true ∧ c.length ≤ i) := fun hend => by omega
  have hmin : min (i + 1) c.length = i + 1 := by omega
  simp [before, advance, goTo, hwithin, hmin]

theorem before_zero {c : Cursor} (h : c.next = 0) : c.before 0 = c := by
  have hfirst : c.before 0 = c.goTo 0 := by simp [before]
  rw [hfirst, ← h, goTo_next]

theorem before_of_looping {c : Cursor} (h : c.looping) : c.before c.length = c.before 0 := by simp [before, h]

theorem action?_before {c : Cursor} {i : Nat} (h : i < c.length) : (c.before i).action? = some ⟨c.list, i⟩ := by
  have hwithin : ¬(c.looping = true ∧ c.length ≤ i) := fun hend => by omega
  simp [before, goTo, ListRef.action?, hwithin, h]

theorem isOver_before {c : Cursor} (h : c.looping = false) : (c.before c.length).IsOver := by
  simp [IsOver, before, goTo, ListRef.action?, h]

theorem IsOver.action?_advance {c : Cursor} (h : c.IsOver) : c.advance.action? = none := by
  have hend := action?_eq_none_iff.mp h.1
  have hmin : min (c.next + 1) c.length = c.length := by omega
  simp [advance, goTo, ListRef.action?, h.2, hmin]

theorem isOver_advance {c : Cursor} {a : ActionRef} (ha : c.action? = some a) (h : c.advance.action? = none) :
    c.advance.IsOver := by
  refine ⟨h, ?_⟩
  have hwithin := (action?_eq_some_iff.mp ha).1
  cases hl : c.looping with
  | false => exact hl
  | true =>
    simp only [advance, goTo, ListRef.action?, hl, true_and, ite_eq_right_iff, reduceCtorEq, imp_false, Nat.not_lt] at h
    split at h <;> omega

end Cursor

/-- Leaves lists that are at their end, the innermost one first; `outer` are the cursors around `top`, from the inside
    out. -/
def leaveOver (top : Cursor) : (outer : List Cursor) → List Cursor
  | [] => [top]
  | below :: outer => if top.IsOver then leaveOver below.advance outer else top :: below :: outer

/-- The cursors that remain when all lists that are at their end have been left. -/
def settled (cursors : List Cursor) : List Cursor :=
  match cursors.reverse with
  | [] => []
  | top :: outer => (leaveOver top outer).reverse

theorem settled_concat_over {cursors : List Cursor} {below top : Cursor} (h : top.IsOver) :
    settled (cursors ++ [below] ++ [top]) = settled (cursors ++ [below.advance]) := by
  simp [settled, leaveOver, h]

theorem settled_concat_of_not_over {cursors : List Cursor} {top : Cursor} (h : ¬top.IsOver) :
    settled (cursors ++ [top]) = cursors ++ [top] := by
  cases hc : cursors.reverse with
  | nil => simp [settled, leaveOver, List.reverse_eq_nil_iff.mp hc]
  | cons below outer =>
    have : cursors = (below :: outer).reverse := by rw [← hc, List.reverse_reverse]
    simp [settled, leaveOver, h, this]

theorem settled_singleton (top : Cursor) : settled [top] = [top] := by simp [settled, leaveOver]

/-- Going on in a list, or leaving it at its end, is the same to settled cursors. -/
theorem settled_advance {cursors : List Cursor} {top : Cursor} {a : ActionRef} {waiting : Bool} {time : Seconds}
    (ha : top.action? = some a) :
    settled (Lane.mk (cursors ++ [top]) waiting time).advance.1.cursors = settled (cursors ++ [top.advance]) := by
  cases hn : top.advance.action? with
  | some next => rw [Lane.advance_of_some (by simp [hn])]
  | none =>
    rcases List.eq_nil_or_concat cursors with rfl | ⟨outer, below, rfl⟩
    · rw [List.nil_append, Lane.advance_root hn, List.nil_append]
    · rw [List.concat_eq_append, Lane.advance_of_none hn, settled_concat_over (Cursor.isOver_advance ha hn)]

/-- Cursors from the outermost one on are settled, or the innermost one can be left. -/
theorem settled_induction {P : List Cursor → Prop} (hroot : ∀ top, P [top])
    (hover : ∀ cursors below top, top.IsOver → P (cursors ++ [below.advance]) → P (cursors ++ [below] ++ [top]))
    (hstay : ∀ cursors top, ¬top.IsOver → P (cursors ++ [top])) : ∀ cursors, cursors ≠ [] → P cursors := by
  suffices key : ∀ (outer : List Cursor) (top : Cursor), P (outer.reverse ++ [top]) by
    intro cursors hne
    rw [← List.dropLast_concat_getLast hne, ← List.reverse_reverse cursors.dropLast]
    exact key _ _
  intro outer
  induction outer with
  | nil => exact fun top => hroot top
  | cons below outer ih =>
    intro top
    by_cases h : top.IsOver
    · rw [List.reverse_cons]
      exact hover _ _ _ h (ih below.advance)
    · exact hstay _ _ h

theorem settled_ne_nil : ∀ cursors, cursors ≠ [] → settled cursors ≠ [] := by
  refine settled_induction (fun top => by simp [settled_singleton]) (fun cursors below top h ih => ?_)
    (fun cursors top h => by simp [settled_concat_of_not_over h])
  rw [settled_concat_over h]
  exact ih

theorem ne_nil_of_settled {cursors outer : List Cursor} {top : Cursor}
    (h : settled cursors = settled (outer ++ [top])) :
    cursors ≠ [] := by
  rintro rfl
  exact settled_ne_nil (outer ++ [top]) (by simp) h.symm

/-! ### Loops -/

namespace Conversation
variable (c : Conversation)

/-- An action of the conversation; what is tried out on its own is none of it. -/
def lookup? (a : ActionRef) : Option (Action ListId) :=
  match a.list with
  | .script l => c.action? l a.index
  | .preview => none

/-- The condition that keeps a cursor looping. -/
def loopOf? (cur : Cursor) : Option Condition :=
  if cur.looping then (cur.guard.bind c.lookup?).bind Action.guard? else none

/-- The conditions of all loops that are played, from the outermost to the innermost. -/
def loops (cursors : List Cursor) : List Condition := cursors.filterMap c.loopOf?

/-- The cursors up to one of the loops, which is over. -/
def endLoop : Nat → List Cursor → List Cursor
  | _, [] => []
  | k, cur :: inner =>
    match c.loopOf? cur, k with
    | none, k => cur :: endLoop k inner
    | some _, 0 => [cur.release.forwardEnd]
    | some _, k + 1 => cur :: endLoop k inner

variable {c}

theorem looping_of_loopOf? {cur : Cursor} {condition : Condition} (h : c.loopOf? cur = some condition) :
    cur.looping := by
  unfold loopOf? at h
  split at h
  · assumption
  · cases h

theorem loops_append (outer inner : List Cursor) : c.loops (outer ++ inner) = c.loops outer ++ c.loops inner :=
  List.filterMap_append

theorem loops_concat_of_none (cursors : List Cursor) {cur : Cursor} (h : c.loopOf? cur = none) :
    c.loops (cursors ++ [cur]) = c.loops cursors := by
  simp [loops, h]

theorem loops_concat_of_some {cursors : List Cursor} {cur : Cursor} {condition : Condition}
    (h : c.loopOf? cur = some condition) : c.loops (cursors ++ [cur]) = c.loops cursors ++ [condition] := by
  simp [loops, h]

theorem loops_before {cursors : List Cursor} {cur : Cursor} {i : Nat} :
    c.loops (cursors ++ [cur.before i]) = c.loops (cursors ++ [cur]) := by
  rw [loops_append, loops_append]
  rfl

theorem loopOf?_of_over {cur : Cursor} (h : cur.IsOver) : c.loopOf? cur = none := by simp [loopOf?, h.2]

/-- What is inside a loop does not matter when it ends. -/
theorem endLoop_append {k : Nat} (inner : List Cursor) :
    ∀ {outer : List Cursor}, k < (c.loops outer).length → c.endLoop k (outer ++ inner) = c.endLoop k outer := by
  intro outer
  induction outer generalizing k with
  | nil => simp [loops]
  | cons cur outer ih =>
    intro hk
    cases hl : c.loopOf? cur with
    | none => simp [endLoop, hl, ih (by simpa [loops, hl] using hk)]
    | some condition =>
      cases k with
      | zero => simp [endLoop, hl]
      | succ k => simp [endLoop, hl, ih (by simpa [loops, hl] using hk)]

theorem endLoop_concat {cursors : List Cursor} {cur : Cursor} (h : (c.loopOf? cur).isSome) :
    c.endLoop (c.loops cursors).length (cursors ++ [cur]) = cursors ++ [cur.release.forwardEnd] := by
  obtain ⟨condition, hcur⟩ := Option.isSome_iff_exists.mp h
  induction cursors with
  | nil => simp [loops, endLoop, hcur]
  | cons first cursors ih =>
    cases hl : c.loopOf? first with
    | none => simpa [loops, endLoop, hl] using ih
    | some other => simpa [loops, endLoop, hl] using ih

theorem endLoop_concat_congr {k : Nat} {cursors : List Cursor} {cur other : Cursor}
    (hloop : c.loopOf? other = c.loopOf? cur)
    (hend : other.release.forwardEnd = cur.release.forwardEnd) (hk : k < (c.loops (cursors ++ [cur])).length) :
    c.endLoop k (cursors ++ [other]) = c.endLoop k (cursors ++ [cur]) := by
  by_cases hin : k < (c.loops cursors).length
  · rw [endLoop_append _ hin, endLoop_append _ hin]
  · -- The loop that ends is the innermost cursor itself.
    cases hl : c.loopOf? cur with
    | none =>
      rw [loops_concat_of_none _ hl] at hk
      exact absurd hk hin
    | some condition =>
      rw [loops_concat_of_some hl, List.length_append, List.length_singleton] at hk
      obtain rfl : k = (c.loops cursors).length := by omega
      rw [endLoop_concat (by simp [hloop, hl]), endLoop_concat (by simp [hl]), hend]

theorem loops_settled : ∀ cursors, cursors ≠ [] → c.loops (settled cursors) = c.loops cursors := by
  refine settled_induction (fun top => by rw [settled_singleton]) (fun cursors below top h ih => ?_)
    (fun cursors top h => by rw [settled_concat_of_not_over h])
  rw [settled_concat_over h, ih, loops_concat_of_none (cursors ++ [below]) (loopOf?_of_over h),
    loops_append, loops_append]
  rfl

theorem endLoop_settled {k : Nat} :
    ∀ cursors, cursors ≠ [] → k < (c.loops cursors).length →
      c.endLoop k (settled cursors) = c.endLoop k cursors := by
  refine settled_induction (fun top _ => by rw [settled_singleton]) (fun cursors below top h ih hk => ?_)
    (fun cursors top h _ => by rw [settled_concat_of_not_over h])
  rw [loops_concat_of_none (cursors ++ [below]) (loopOf?_of_over h)] at hk
  rw [settled_concat_over h, endLoop_append _ hk]
  have hsame : c.loops (cursors ++ [below.advance]) = c.loops (cursors ++ [below]) := by
    rw [loops_append, loops_append]
    rfl
  rw [ih (hsame ▸ hk)]
  exact endLoop_concat_congr rfl rfl hk

variable {cursors outer : List Cursor} {top : Cursor}

theorem loops_of_settled (h : settled cursors = settled (outer ++ [top])) :
    c.loops cursors = c.loops (outer ++ [top]) := by
  rw [← loops_settled cursors (ne_nil_of_settled h), h, loops_settled _ (by simp)]

theorem endLoop_of_settled {k : Nat} (h : settled cursors = settled (outer ++ [top]))
    (hk : k < (c.loops (outer ++ [top])).length) : c.endLoop k cursors = c.endLoop k (outer ++ [top]) := by
  rw [← endLoop_settled cursors (ne_nil_of_settled h) (by rwa [loops_of_settled h]), h,
    endLoop_settled _ (by simp) hk]

end Conversation
end Dialogue
