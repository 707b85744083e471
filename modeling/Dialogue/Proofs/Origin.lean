import Dialogue.Proofs.Moves

/-! Where loops come from. A move leaves cursors, changes them where they are, or adds one on top; so a cursor that
    loops has been looping before, or an action has just entered its list (`Move.origin`). -/

namespace Dialogue

/-! ### Cursors that are left and changed -/

/-- Every cursor of the second lane has been at its place in the first one, where it loops if it still does. -/
def Shrunk (cursors cursors' : List Cursor) : Prop :=
  ∀ (i : Nat) cur', cursors'[i]? = some cur' →
    ∃ cur, cursors[i]? = some cur ∧ cur.parent = cur'.parent ∧ (cur'.looping = true → cur.looping = true)

namespace Shrunk
variable {cursors cursors' cursors'' : List Cursor}

theorem refl (cursors : List Cursor) : Shrunk cursors cursors := fun _ cur h => ⟨cur, h, rfl, id⟩

theorem trans (h : Shrunk cursors cursors') (h' : Shrunk cursors' cursors'') : Shrunk cursors cursors'' := by
  intro i cur'' hcur''
  obtain ⟨cur', hcur', hparent', hloop'⟩ := h' i cur'' hcur''
  obtain ⟨cur, hcur, hparent, hloop⟩ := h i cur' hcur'
  exact ⟨cur, hcur, hparent.trans hparent', hloop ∘ hloop'⟩

theorem left (h : cursors' <+: cursors) : Shrunk cursors cursors' := by
  intro i cur' hcur'
  obtain ⟨rest, rfl⟩ := h
  refine ⟨cur', ?_, rfl, id⟩
  rw [List.getElem?_append_left (List.getElem?_eq_some_iff.mp hcur').1]
  exact hcur'

theorem modify (n : Nat) {f : Cursor → Cursor} (hparent : ∀ cur, (f cur).parent = cur.parent)
    (hloop : ∀ cur, (f cur).looping = true → cur.looping = true) : Shrunk cursors (cursors.modify n f) := by
  intro i cur' hcur'
  rw [List.getElem?_modify] at hcur'
  obtain ⟨cur, hcur, heq⟩ := Option.map_eq_some_iff.mp hcur'
  refine ⟨cur, hcur, ?_⟩
  split at heq <;> subst heq
  · exact ⟨(hparent cur).symm, hloop cur⟩
  · exact ⟨rfl, id⟩

theorem take_modify (m n : Nat) {f : Cursor → Cursor} (hparent : ∀ cur, (f cur).parent = cur.parent)
    (hloop : ∀ cur, (f cur).looping = true → cur.looping = true) : Shrunk cursors ((cursors.take m).modify n f) :=
  (left (List.take_prefix _ _)).trans (modify _ hparent hloop)

theorem advance : Shrunk cursors (Lane.mk cursors true 0).advance.1.cursors := by
  rcases @Lane.advance_cursors cursors with ⟨-, hkept⟩ | ⟨-, -, hleft⟩
  · rw [hkept]
    exact modify _ (fun _ => rfl) fun _ => id
  · rw [hleft]
    exact take_modify _ _ (fun _ => rfl) fun _ => id

theorem stopping : Shrunk cursors (Session.stopping cursors) :=
  (left (Lane.leaveToTopic_prefix ⟨cursors, true, 0⟩)).trans (modify _ (fun _ => rfl) fun _ h => h)

end Shrunk

namespace Session
variable {s t : Session} {id other : LaneId} {i : Nat} {cursors cursors' : List Cursor} {cur : Cursor}
  {now : Option (List Cursor)} {log : List Event}

/-- How the cursor at a place of a lane has come to loop there. -/
inductive Origin (s t : Session) (id : LaneId) (i : Nat) (cur : Cursor) : Prop where
  /-- It did before. -/
  | kept {cursors old} (hlane : s.cursors? id = some cursors) (hold : cursors[i]? = some old)
      (hloop : old.looping = true) (hparent : old.parent = cur.parent)
  /-- An action of the lane has entered its list. -/
  | entered {ref a log} (hparent : cur.parent = some ref) (ha : s.action? ref = some a) (hscript : SameScript s t)
      (hlog : t.events.toList = s.events.toList ++ log) (hnoted : .dispatched id ref a.label ∈ log)

theorem Origin.of_shrunk (hlane : s.cursors? id = some cursors) (h : Shrunk cursors cursors')
    (hcur : cursors'[i]? = some cur) (hloop : cur.looping = true) : Origin s t id i cur := by
  obtain ⟨old, hold, hparent, hloop'⟩ := h i cur hcur
  exact .kept hlane hold (hloop' hloop) hparent

/-- A change of another lane, or one that leaves and changes cursors. -/
theorem Effect.origin (h : Effect other now log s t)
    (hnow : ∀ cursors', now = some cursors' → ∃ cursors, s.cursors? other = some cursors ∧ Shrunk cursors cursors')
    (hlane : t.cursors? id = some cursors') (hcur : cursors'[i]? = some cur) (hloop : cur.looping = true) :
    Origin s t id i cur := by
  by_cases hid : id = other
  · subst hid
    obtain ⟨cursors, hcursors, hshrunk⟩ := hnow cursors' (h.lane.symm.trans hlane)
    exact .of_shrunk hcursors hshrunk hcur hloop
  · exact .of_shrunk ((h.others id hid).symm.trans hlane) (.refl _) hcur hloop

theorem Effect.origin_self (h : Effect other now log s t) (hsame : now = s.cursors? other)
    (hlane : t.cursors? id = some cursors') (hcur : cursors'[i]? = some cur) (hloop : cur.looping = true) :
    Origin s t id i cur :=
  h.origin (fun cursors' hnow => ⟨cursors', hsame ▸ hnow, .refl _⟩) hlane hcur hloop

theorem Effect.origin_left {after : List Cursor} (h : Effect other (some after) log s t)
    (hbefore : s.cursors? other = some cursors) (hshrunk : Shrunk cursors after) (hlane : t.cursors? id = some cursors')
    (hcur : cursors'[i]? = some cur) (hloop : cur.looping = true) : Origin s t id i cur :=
  h.origin (fun _ hnow => ⟨cursors, hbefore, Option.some.inj hnow ▸ hshrunk⟩) hlane hcur hloop

theorem Effect.origin_fresh {l : Lane} (h : Effect other (some l.cursors) log s t) (hfresh : l.IsFresh)
    (hlane : t.cursors? id = some cursors') (hcur : cursors'[i]? = some cur) (hloop : cur.looping = true) :
    Origin s t id i cur := by
  by_cases hid : id = other
  · subst hid
    obtain rfl : l.cursors = cursors' := Option.some.inj (h.lane.symm.trans hlane)
    rw [hfresh.2 cur (List.mem_of_getElem? hcur)] at hloop
    cases hloop
  · exact .of_shrunk ((h.others id hid).symm.trans hlane) (.refl _) hcur hloop

theorem Effect.origin_above {inner : List Cursor} (h : Effect other (some (cursors ++ inner)) log s t)
    (hbelow : ∃ before, s.cursors? other = some before ∧ Shrunk before cursors)
    (habove : ∀ j, inner[j]? = some cur → id = other → i = cursors.length + j → Origin s t id i cur)
    (hlane : t.cursors? id = some cursors') (hcur : cursors'[i]? = some cur) (hloop : cur.looping = true) :
    Origin s t id i cur := by
  by_cases hid : id = other
  · subst hid
    obtain rfl : cursors ++ inner = cursors' := Option.some.inj (h.lane.symm.trans hlane)
    by_cases hi : i < cursors.length
    · rw [List.getElem?_append_left hi] at hcur
      obtain ⟨before, hbefore, hshrunk⟩ := hbelow
      exact .of_shrunk hbefore hshrunk hcur hloop
    · rw [List.getElem?_append_right (Nat.le_of_not_lt hi)] at hcur
      exact habove _ hcur rfl (by omega)
  · exact .of_shrunk ((h.others id hid).symm.trans hlane) (.refl _) hcur hloop

theorem Turn.origin (h : Turn other s t) (hlane : t.cursors? id = some cursors') (hcur : cursors'[i]? = some cur)
    (hloop : cur.looping = true) : Origin s t id i cur := by
  cases h with
  | calm h | actorRemoved h | refused h | ended _ h => exact h.origin_self rfl hlane hcur hloop
  | rooted _ _ h => exact h.origin_fresh (l := ⟨s.root?.toList, true, 0⟩) isFresh_root hlane hcur hloop
  | added _ hfresh h => exact h.origin_fresh hfresh hlane hcur hloop
  | removed _ _ h => exact h.origin (fun _ hnow => nomatch hnow) hlane hcur hloop
  | noted hat _ h | held hat _ _ _ h => exact h.origin_left hat.lane (.refl _) hlane hcur hloop
  | closed hbefore _ h =>
    exact h.origin_left hbefore (.take_modify _ _ (fun _ => rfl) fun _ => nofun) hlane hcur hloop
  | moved hbefore _ h => exact h.origin_left hbefore .advance hlane hcur hloop
  | stopped hat _ h =>
    exact h.origin_left hat.lane (.take_modify _ _ (fun _ => rfl) fun _ h => h) hlane hcur hloop
  | topicStopped hat _ h => exact h.origin_left hat.lane (Shrunk.stopping.trans .advance) hlane hcur hloop
  | @entered cursors _ _ new hat _ _ _ hparent h =>
    refine h.origin_above ⟨cursors, hat.lane, .refl _⟩ (fun j hj hid _ => ?_) hlane hcur hloop
    obtain ⟨rfl, rfl⟩ : j = 0 ∧ new = cur := by simpa [List.getElem?_singleton] using hj
    exact .entered hparent hat.action h.script h.log (hid ▸ List.mem_cons_self)
  | @asked k cursors _ new hid h =>
    subst hid
    refine h.effect.origin_above ⟨cursors, h.at_.lane, .refl _⟩ (fun j hj hid _ => ?_) hlane hcur hloop
    obtain ⟨rfl, rfl⟩ : j = 0 ∧ new = cur := by simpa [List.getElem?_singleton] using hj
    exact .entered h.parent h.at_.action h.effect.script h.effect.log (hid ▸ List.mem_cons_self)
  | @skipped cursors ref a new h =>
    by_cases hid : id = other
    · subst hid
      obtain rfl := Option.some.inj (h.effect.lane.symm.trans hlane)
      obtain ⟨old, hold, hparent, hloop'⟩ := Shrunk.advance i cur hcur
      by_cases hi : i < cursors.length
      · rw [List.getElem?_append_left hi] at hold
        exact .kept h.at_.lane hold (hloop' hloop) hparent
      · rw [List.getElem?_append_right (Nat.le_of_not_lt hi)] at hold
        obtain ⟨hj, rfl⟩ : i - cursors.length = 0 ∧ new = old := by simpa [List.getElem?_singleton] using hold
        exact .entered (hparent.symm.trans h.parent) h.at_.action h.effect.script h.effect.log List.mem_cons_self
    · exact .of_shrunk ((h.effect.others id hid).symm.trans hlane) (.refl _) hcur hloop

/-- A cursor that loops after a move has come to do so in one of these ways. -/
theorem Move.origin (h : Move s t) (hlane : t.cursors? id = some cursors') (hcur : cursors'[i]? = some cur)
    (hloop : cur.looping = true) : Origin s t id i cur := by
  cases h with
  | turn h => exact h.origin hlane hcur hloop
  | set h | dismissed _ _ h => exact h.origin_self rfl hlane hcur hloop
  | advanced hbefore h => exact h.origin_left hbefore .advance hlane hcur hloop
  | cancelled hbefore _ h => exact h.origin_left hbefore (.take_modify _ _ (fun _ => rfl) fun _ => nofun) hlane hcur hloop
  | @answered k _ inner cursors _ hbefore _ h =>
    have hreleased : Shrunk cursors (released cursors (k.depth - 1)) := .take_modify _ _ (fun _ => rfl) fun _ => nofun
    have hshrunk := hreleased.trans (.modify (k.depth - 1) (f := Cursor.forwardEnd) (fun _ => rfl) fun _ h => h)
    refine h.effect.origin_above ⟨cursors, hbefore, hshrunk⟩ (fun j hj _ _ => ?_) hlane hcur hloop
    have hmem : cur ∈ inner.toList := List.mem_of_getElem? hj
    rw [(h.plain cur (Option.mem_toList.mp hmem)).1] at hloop
    cases hloop
  | rewound _ _ hfresh hsides =>
    rw [looping_of_fresh hfresh hsides hlane hcur] at hloop
    cases hloop

end Session
end Dialogue
