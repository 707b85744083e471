import Dialogue.Playback.Lane

/-! What the operations on lanes do to their cursors, told by the outermost cursors and the innermost one. -/

namespace Dialogue

theorem modify_length_add_append {α : Type} (f : α → α) (l r : List α) (n : Nat) :
    (l ++ r).modify (l.length + n) f = l ++ r.modify n f := by
  induction l with
  | nil => simp
  | cons x l ih => simp [Nat.add_right_comm _ 1 n, ih]

theorem modify_middle {α : Type} (f : α → α) (l r : List α) (x : α) :
    (l ++ x :: r).modify l.length f = l ++ f x :: r := modify_length_add_append f l (x :: r) 0

theorem map_modify_of_eq {α β : Type} {f : α → α} {g : α → β} (h : ∀ x, g (f x) = g x) :
    ∀ (l : List α) (n : Nat), (l.modify n f).map g = l.map g
  | [], _ => by simp
  | x :: l, 0 => by simp [h]
  | x :: l, n + 1 => by simp [map_modify_of_eq h l n]

namespace Cursor
variable {c : Cursor}

@[simp] theorem next_goTo (c : Cursor) (i : Nat) : (c.goTo i).next = i := rfl
@[simp] theorem length_goTo (c : Cursor) (i : Nat) : (c.goTo i).length = c.length := rfl

theorem goTo_next (c : Cursor) : c.goTo c.next = c := by
  cases c with
  | mk topic parent list length guard looping next action? action?_eq =>
    subst action?_eq
    rfl

theorem action?_eq_none_iff : c.action? = none ↔ c.length ≤ c.next := by
  simp [c.action?_eq, ListRef.action?]

theorem action?_eq_some_iff {a : ActionRef} : c.action? = some a ↔ c.next < c.length ∧ a = ⟨c.list, c.next⟩ := by
  simp [c.action?_eq, ListRef.action?, eq_comm]

theorem action?_forwardEnd : c.forwardEnd.action? = none := action?_eq_none_iff.mpr (Nat.le_refl _)

/-- There is nothing after the end of a list that does not start over. -/
theorem advance_forwardEnd (h : c.looping = false) : c.forwardEnd.advance = c.forwardEnd := by
  simp [advance, forwardEnd, goTo, h]

end Cursor

namespace Lane
variable {cursors : List Cursor} {top below : Cursor} {waiting : Bool} {time : Seconds}

@[simp] theorem top?_concat : (Lane.mk (cursors ++ [top]) waiting time).top? = some top := by
  simp [top?]

@[simp] theorem action?_concat : (Lane.mk (cursors ++ [top]) waiting time).action? = top.action? := by
  simp [action?]

@[simp] theorem depth_concat : (Lane.mk (cursors ++ [top]) waiting time).depth = cursors.length + 1 := by
  simp [depth]

theorem changeTop_concat (f : Cursor → Cursor) :
    (Lane.mk (cursors ++ [top]) waiting time).changeTop f = ⟨cursors ++ [f top], waiting, time⟩ := by
  simp [changeTop, changeAt, depth, modify_middle]

theorem pop_concat (h : cursors ≠ []) :
    (Lane.mk (cursors ++ [top]) waiting time).pop = ⟨cursors, waiting, time⟩ := by
  have hlen : 0 < cursors.length := List.length_pos_iff.mpr h
  have hdeep : ¬ (cursors.length = 0) := by omega
  simp [pop, hdeep]

/-- What is left of a lane whose innermost topic is stopped. -/
theorem leaveToTopic_eq (l : Lane) :
    l.leaveToTopic.cursors =
      if (l.cursors.reverse.dropWhile fun c => c.topic.isNone).isEmpty then l.cursors.take 1
      else (l.cursors.reverse.dropWhile fun c => c.topic.isNone).reverse := by
  unfold leaveToTopic
  cases hkept : l.cursors.reverse.dropWhile fun c => c.topic.isNone with
  | nil => rfl
  | cons c kept =>
    simp only [List.isEmpty_cons, Bool.false_eq_true, ↓reduceIte]
    split
    · rename_i hnil
      simp at hnil
    · rfl

theorem leaveToTopic_prefix (l : Lane) : l.leaveToTopic.cursors <+: l.cursors := by
  rw [leaveToTopic_eq]
  split
  · exact List.take_prefix 1 _
  · rw [← List.reverse_suffix, List.reverse_reverse]
    exact List.dropWhile_suffix _

theorem advance_of_some (h : top.advance.action?.isSome) :
    (Lane.mk (cursors ++ [top]) waiting time).advance = (⟨cursors ++ [top.advance], true, 0⟩, false) := by
  simp [advance, changeTop_concat, h, prime]

theorem advance_of_none (h : top.advance.action? = none) :
    (Lane.mk (cursors ++ [below] ++ [top]) waiting time).advance = (⟨cursors ++ [below.advance], true, 0⟩, true) := by
  have hpop : (Lane.mk (cursors ++ [below] ++ [top.advance]) waiting time).pop = ⟨cursors ++ [below], waiting, time⟩ :=
    pop_concat (by simp)
  simp only [advance, changeTop_concat, action?_concat, h, depth_concat, hpop]
  simp [prime]

theorem advance_root (h : top.advance.action? = none) :
    (Lane.mk [top] waiting time).advance = (⟨[top.advance], waiting, time⟩, false) := by
  have hchange : (Lane.mk [top] waiting time).changeTop Cursor.advance = ⟨[top.advance], waiting, time⟩ := rfl
  have hact : (Lane.mk [top.advance] waiting time).action? = none := by simpa [action?, top?] using h
  simp [advance, hchange, hact, depth]

/-- Where a lane goes on does not depend on how long it has waited. -/
theorem advance_clock :
    (Lane.mk cursors waiting time).advance.1.cursors = (Lane.mk cursors true 0).advance.1.cursors ∧
      (Lane.mk cursors waiting time).advance.2 = (Lane.mk cursors true 0).advance.2 := by
  rcases List.eq_nil_or_concat cursors with rfl | ⟨outer, top, rfl⟩
  · exact ⟨rfl, rfl⟩
  rw [List.concat_eq_append]
  cases hn : top.advance.action? with
  | some next =>
    rw [advance_of_some (by simp [hn]), advance_of_some (by simp [hn])]
    exact ⟨rfl, rfl⟩
  | none =>
    rcases List.eq_nil_or_concat outer with rfl | ⟨around, below, rfl⟩
    · rw [List.nil_append, advance_root hn, advance_root hn]
      exact ⟨rfl, rfl⟩
    · rw [List.concat_eq_append, advance_of_none hn, advance_of_none hn]
      exact ⟨rfl, rfl⟩

/-- A lane that leaves its innermost list goes on in the list below. -/
theorem exists_of_leaves {l : Lane} (h : l.advance.2 = true) :
    ∃ outer below top, l.cursors = outer ++ [below, top] ∧ l.advance.1.cursors = outer ++ [below.advance] := by
  obtain ⟨cursors, waiting, time⟩ := l
  rcases List.eq_nil_or_concat cursors with rfl | ⟨outer, top, rfl⟩
  · cases h
  rw [List.concat_eq_append] at h ⊢
  cases hn : top.advance.action? with
  | some next =>
    rw [advance_of_some (by simp [hn])] at h
    cases h
  | none =>
    rcases List.eq_nil_or_concat outer with rfl | ⟨around, below, rfl⟩
    · rw [List.nil_append, advance_root hn] at h
      cases h
    · rw [List.concat_eq_append, advance_of_none hn]
      exact ⟨around, below, top, by simp, rfl⟩

/-- A lane that goes on changes its innermost cursor, or leaves it and changes the one below. -/
theorem advance_cursors :
    ((Lane.mk cursors true 0).advance.2 = false ∧
      (Lane.mk cursors true 0).advance.1.cursors = cursors.modify (cursors.length - 1) Cursor.advance) ∨
    ((Lane.mk cursors true 0).advance.2 = true ∧ 1 < cursors.length ∧
      (Lane.mk cursors true 0).advance.1.cursors =
        (cursors.take (cursors.length - 1)).modify (cursors.length - 2) Cursor.advance) := by
  rcases List.eq_nil_or_concat cursors with rfl | ⟨outer, top, rfl⟩
  · exact .inl ⟨rfl, rfl⟩
  rw [List.concat_eq_append]
  cases hn : top.advance.action? with
  | some next =>
    rw [advance_of_some (by simp [hn])]
    exact .inl ⟨rfl, by simp [modify_middle]⟩
  | none =>
    rcases List.eq_nil_or_concat outer with rfl | ⟨around, below, rfl⟩
    · rw [List.nil_append, advance_root hn]
      exact .inl ⟨rfl, rfl⟩
    · rw [List.concat_eq_append, advance_of_none hn]
      have htake : (around ++ [below] ++ [top]).take (around ++ [below]).length = around ++ [below] :=
        List.take_left' rfl
      refine .inr ⟨rfl, by simp, ?_⟩
      rw [List.length_append, List.length_singleton, Nat.add_sub_cancel, htake]
      simp [modify_middle]

theorem length_advance_le : (Lane.mk cursors true 0).advance.1.cursors.length ≤ cursors.length := by
  rcases @advance_cursors cursors with ⟨-, hkept⟩ | ⟨-, -, hleft⟩
  · rw [hkept]
    exact Nat.le_of_eq (List.length_modify ..)
  · rw [hleft, List.length_modify]
    exact List.length_take_le' _ _

end Lane
end Dialogue
