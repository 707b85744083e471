import Dialogue.Proofs.Growth

/-! What becomes of the cursors of a lane. Whatever is done to a lane leaves some of its lists, puts the cursor that is
    innermost then elsewhere in its list, or enters a further list (`Reforms`). So cursors stay within lists of the length
    that they have (`Grows.fits`), and the outermost one stays in its list (`Grows.outermost`). -/

namespace Dialogue

namespace Cursor
variable {c c' c'' : Cursor}

/-- Another place in the same list, which has been entered in the same way. -/
structure Shifts (c c' : Cursor) : Prop where
  topic : c'.topic = c.topic
  parent : c'.parent = c.parent
  list : c'.list = c.list
  length : c'.length = c.length
  guard : c'.guard = c.guard
  looping : c'.looping = true → c.looping = true
  next : c.next ≤ c.length → c'.next ≤ c'.length

namespace Shifts

theorem refl (c : Cursor) : c.Shifts c := ⟨rfl, rfl, rfl, rfl, rfl, id, id⟩

theorem trans (h : c.Shifts c') (h' : c'.Shifts c'') : c.Shifts c'' :=
  ⟨h'.topic.trans h.topic, h'.parent.trans h.parent, h'.list.trans h.list, h'.length.trans h.length,
    h'.guard.trans h.guard, h.looping ∘ h'.looping, h'.next ∘ h.next⟩

theorem advance (c : Cursor) : c.Shifts c.advance := by
  refine ⟨rfl, rfl, rfl, rfl, rfl, id, fun _ => ?_⟩
  unfold Cursor.advance
  simp only
  split
  · exact Nat.zero_le _
  · exact Nat.min_le_right _ _

theorem forwardEnd (c : Cursor) : c.Shifts c.forwardEnd := ⟨rfl, rfl, rfl, rfl, rfl, id, fun _ => Nat.le_refl _⟩

theorem forwardLast (c : Cursor) : c.Shifts c.forwardLast := ⟨rfl, rfl, rfl, rfl, rfl, id, fun _ => Nat.sub_le _ _⟩

theorem release (c : Cursor) : c.Shifts c.release := ⟨rfl, rfl, rfl, rfl, rfl, nofun, id⟩

end Shifts

/-- A cursor that is kept when lists are left has been at its place before. -/
theorem exists_shifts {cursors : List Cursor} {n i : Nat} {f : Cursor → Cursor} (hshifts : ∀ c : Cursor, c.Shifts (f c))
    (h : ((cursors.take n).modify (n - 1) f)[i]? = some c') : ∃ c, cursors[i]? = some c ∧ c.Shifts c' := by
  rw [List.getElem?_modify, List.getElem?_take] at h
  obtain ⟨c, hc, rfl⟩ := Option.map_eq_some_iff.mp h
  split at hc
  · refine ⟨c, hc, ?_⟩
    split
    · exact hshifts c
    · exact .refl c
  · cases hc

/-- When lists are left, one that still has another above it is as before. -/
theorem exists_pair_kept {cursors : List Cursor} {n i : Nat} {f : Cursor → Cursor} {below : Cursor}
    (hbelow : ((cursors.take n).modify (n - 1) f)[i]? = some below)
    (hcur : ((cursors.take n).modify (n - 1) f)[i + 1]? = some c') :
    ∃ c, cursors[i]? = some below ∧ cursors[i + 1]? = some c ∧ (c' = c ∨ c' = f c) := by
  rw [List.getElem?_modify, List.getElem?_take] at hbelow hcur
  obtain ⟨c, hold, rfl⟩ := Option.map_eq_some_iff.mp hcur
  split at hold
  · have hne : n - 1 ≠ i := by omega
    refine ⟨c, by simpa [hne, show i < n by omega] using hbelow, hold, ?_⟩
    split
    · exact .inr rfl
    · exact .inl rfl
  · cases hold

/-- When a list is entered, the one that has been innermost is below it. -/
theorem pair_of_concat {cursors : List Cursor} {i : Nat} {below new : Cursor}
    (hbelow : (cursors ++ [new])[i]? = some below) (hcur : (cursors ++ [new])[i + 1]? = some c) :
    cursors[i]? = some below ∧ cursors[i + 1]? = some c ∨ cursors.getLast? = some below ∧ c = new := by
  have hlen : i + 1 < cursors.length + 1 := by simpa using (List.getElem?_eq_some_iff.mp hcur).1
  rw [List.getElem?_append_left (by omega)] at hbelow
  by_cases hi : i + 1 < cursors.length
  · rw [List.getElem?_append_left hi] at hcur
    exact .inl ⟨hbelow, hcur⟩
  · rw [List.getElem?_append_right (by omega)] at hcur
    refine .inr ⟨?_, List.mem_singleton.mp (List.mem_of_getElem? hcur)⟩
    rw [List.getLast?_eq_getElem?, show cursors.length - 1 = i by omega, hbelow]

end Cursor

namespace Session
variable {s t : Session} {l l' : Lane} {cur : Cursor}

/-- An action has just entered the list of a cursor. -/
inductive Opens (s : Session) (cur : Cursor) : Prop where
  | entered {ref a} (ha : s.action? ref = some a) (h : s.Enters ref a.kind cur)
  | answered {ref a} (list : ListId) (ha : s.action? ref = some a)
      (h : cur = { s.cursor (.script list) with parent := some ref })

/-- What playing makes of the cursors of a lane. -/
inductive Forms (s : Session) (l l' : Lane) : Prop where
  | kept (n : Nat) (f : Cursor → Cursor) (hpos : 0 < n) (hshifts : ∀ c : Cursor, c.Shifts (f c))
      (hcursors : l'.cursors = (l.cursors.take n).modify (n - 1) f)
  | rooted (hempty : l.cursors = []) (hcursors : l'.cursors = s.root?.toList)
  | entered {ref : ActionRef} {a : Action ListId} {cur : Cursor} (hnext : l.action? = some ref)
      (ha : s.action? ref = some a) (hcur : s.Enters ref a.kind cur) (hcursors : l'.cursors = l.cursors ++ [cur])

/-- What an alteration makes of the cursors of a lane. -/
inductive Reforms (s : Session) (l l' : Lane) : Prop where
  | kept (n : Nat) (f : Cursor → Cursor) (hpos : 0 < n) (hshifts : ∀ c : Cursor, c.Shifts (f c))
      (hcursors : l'.cursors = (l.cursors.take n).modify (n - 1) f)
  | rooted (hempty : l.cursors = []) (hcursors : l'.cursors = s.root?.toList)
  | entered {cur : Cursor} (hne : l.cursors ≠ []) (hopens : s.Opens cur)
      (hnext : cur.looping = true → ∃ ref, l.action? = some ref ∧ ∀ guard, cur.guard = some guard → guard = ref)
      (hcursors : l'.cursors = l.cursors ++ [cur])

theorem Forms.all {f : Cursor → Cursor} (hshifts : ∀ c : Cursor, c.Shifts (f c))
    (hcursors : l'.cursors = l.cursors.modify (l.cursors.length - 1) f) : s.Forms l l' := by
  refine .kept (max l.cursors.length 1) f (by omega) hshifts ?_
  rw [List.take_of_length_le (Nat.le_max_left _ _), hcursors]
  congr 1
  omega

theorem Forms.same (hcursors : l'.cursors = l.cursors) : s.Forms l l' :=
  .all (f := id) Cursor.Shifts.refl (by rw [hcursors, List.modify_id])

theorem Enters.guard {ref : ActionRef} {kind : Kind ListId} (h : s.Enters ref kind cur) :
    ∀ guard, cur.guard = some guard → guard = ref := by
  intro guard hguard
  cases h with
  | topic _ hcur =>
    obtain ⟨_, -, rfl⟩ := Option.map_eq_some_iff.mp hcur
    cases hguard
  | branch | meanwhile => cases hguard
  | body => exact (Option.some.inj hguard).symm

theorem ne_nil_of_action? {ref : ActionRef} (h : l.action? = some ref) : l.cursors ≠ [] := by
  intro hnil
  simp [Lane.action?, Lane.top?, hnil] at h

theorem LaneChange.forms (h : s.LaneChange l l') : s.Forms l l' := by
  cases h with
  | primed | timed => exact .same rfl
  | rooted hempty => exact .rooted hempty rfl
  | advanced =>
    have hclock : l.advance.1.cursors = (Lane.mk l.cursors true 0).advance.1.cursors := Lane.advance_clock.1
    rcases @Lane.advance_cursors l.cursors with ⟨-, hkept⟩ | ⟨-, hdeep, hleft⟩
    · exact .all Cursor.Shifts.advance (hclock.trans hkept)
    · exact .kept (l.cursors.length - 1) Cursor.advance (by omega) Cursor.Shifts.advance
        (hclock.trans (by rw [hleft, Nat.sub_sub]))
  | @ended d hd =>
    exact .kept (d + 1) (fun c => c.release.forwardEnd) (Nat.succ_pos d)
      (fun c => (Cursor.Shifts.release c).trans (.forwardEnd _)) (by simp [Lane.prime, Lane.changeAt, Lane.truncate])
  | @released d hd =>
    exact .kept (d + 1) Cursor.release (Nat.succ_pos d) Cursor.Shifts.release
      (by simp [Lane.prime, Lane.changeAt, Lane.truncate])
  | stopped =>
    refine .kept 1 Cursor.forwardEnd Nat.one_pos Cursor.Shifts.forwardEnd ?_
    have hlast : (l.truncate 1).depth - 1 = 0 := by
      have := List.length_take_le 1 l.cursors
      simp only [Lane.depth, Lane.truncate, Nat.max_self]
      omega
    rw [Lane.changeTop, hlast]
    rfl
  | topicStopped =>
    refine .kept (max l.leaveToTopic.cursors.length 1) Cursor.forwardLast (by omega) Cursor.Shifts.forwardLast ?_
    by_cases hempty : l.cursors = []
    · have hleft : l.leaveToTopic.cursors = [] := List.prefix_nil.mp (hempty ▸ l.leaveToTopic_prefix)
      simp [Lane.changeTop, Lane.changeAt, hleft, hempty]
    · -- At least the outermost list is kept.
      have hpos : 0 < l.leaveToTopic.cursors.length := by
        rw [Lane.leaveToTopic_eq, List.length_pos_iff]
        split
        · simpa using hempty
        · rename_i htopic
          simpa using htopic
      rw [Nat.max_eq_left hpos, ← List.prefix_iff_eq_take.mp l.leaveToTopic_prefix]
      rfl
  | entered hnext ha hcur => exact .entered hnext ha hcur rfl

theorem Forms.reforms (h : s.Forms l l') : s.Reforms l l' := by
  cases h with
  | kept n f hpos hshifts hcursors => exact .kept n f hpos hshifts hcursors
  | rooted hempty hcursors => exact .rooted hempty hcursors
  | entered hnext ha hcur hcursors =>
    exact .entered (ne_nil_of_action? hnext) (.entered ha hcur) (fun _ => ⟨_, hnext, hcur.guard⟩) hcursors

theorem Alteration.reforms (h : s.Alteration l l') : s.Reforms l l' := by
  cases h with
  | played h => exact h.forms.reforms
  | @passed d hd =>
    refine (Forms.all Cursor.Shifts.forwardEnd ?_).reforms
    rw [Lane.depth] at hd
    rw [hd]
    rfl
  | answered list hne ha => exact .entered hne (.answered list ha rfl) (fun h => absurd h Bool.false_ne_true) rfl

/-- A cursor after a change has been at its place before, perhaps elsewhere in its list, or its list is the outermost one
    of an empty lane, or it has just been entered. -/
theorem Reforms.origin {i : Nat} {cur' : Cursor} (h : s.Reforms l l') (hcur' : l'.cursors[i]? = some cur') :
    (∃ cur, l.cursors[i]? = some cur ∧ cur.Shifts cur') ∨
      (l.cursors = [] ∧ s.root? = some cur') ∨ (0 < i ∧ s.Opens cur') := by
  cases h with
  | kept n f _ hshifts hcursors => exact .inl (Cursor.exists_shifts hshifts (hcursors ▸ hcur'))
  | rooted hempty hcursors =>
    rw [hcursors] at hcur'
    exact .inr (.inl ⟨hempty, Option.mem_toList.mp (List.mem_of_getElem? hcur')⟩)
  | entered hne hopens _ hcursors =>
    rw [hcursors, List.getElem?_append] at hcur'
    split at hcur'
    · exact .inl ⟨cur', hcur', .refl cur'⟩
    · rename_i hi
      have hpos := List.length_pos_iff.mpr hne
      obtain ⟨-, rfl⟩ : i - l.cursors.length = 0 ∧ _ = cur' := by simpa [List.getElem?_singleton] using hcur'
      exact .inr (.inr ⟨by omega, hopens⟩)

theorem Reforms.ne_nil (h : s.Reforms l l') (hl : l.cursors ≠ []) : l'.cursors ≠ [] := by
  cases h with
  | kept n f hpos _ hcursors =>
    rw [hcursors, ne_eq, List.modify_eq_nil_iff, List.take_eq_nil_iff, not_or]
    exact ⟨Nat.ne_of_gt hpos, hl⟩
  | rooted hempty => exact absurd hempty hl
  | entered _ _ _ hcursors => simp [hcursors]

theorem Grows.ne_nil (h : s.Grows l l') (hl : l.cursors ≠ []) : l'.cursors ≠ [] := by
  induction h with
  | refl => exact hl
  | tail _ hchange ih => exact hchange.reforms.ne_nil ih

/-! ### Cursors and lists -/

/-- A cursor is within its list, and an action that keeps it looping has a condition. -/
structure Fits (s : Session) (cur : Cursor) : Prop where
  length : cur.length = (s.list cur.list).length
  next : cur.next ≤ cur.length
  guard : ∀ ref, cur.guard = some ref →
    ∃ a condition body, s.action? ref = some a ∧ a.kind = .wait (some condition) body

theorem Fits.shifts {cur' : Cursor} (h : s.Fits cur) (hshifts : cur.Shifts cur') : s.Fits cur' :=
  ⟨by rw [hshifts.length, hshifts.list, h.length], hshifts.next h.next, fun ref href => h.guard ref (hshifts.guard ▸ href)⟩

theorem Fits.action? {ref : ActionRef} (h : s.Fits cur) (href : cur.action? = some ref) : (s.action? ref).isSome := by
  obtain ⟨hwithin, rfl⟩ := Cursor.action?_eq_some_iff.mp href
  rw [Session.action?, Option.isSome_iff_exists]
  exact ⟨_, List.getElem?_eq_getElem (h.length ▸ hwithin)⟩

theorem fits_topicCursor {topic : TopicId} (h : s.topicCursor? topic = some cur) (parent : Option ActionRef) :
    s.Fits { cur with parent } := by
  obtain ⟨_, -, rfl⟩ := Option.map_eq_some_iff.mp h
  exact ⟨rfl, Nat.zero_le _, nofun⟩

theorem fits_root (h : s.root? = some cur) : s.Fits cur := by
  unfold root? at h
  split at h
  · obtain rfl := Option.some.inj h
    exact ⟨rfl, Nat.zero_le _, nofun⟩
  · obtain ⟨_, -, hcur⟩ := Option.bind_eq_some_iff.mp h
    exact fits_topicCursor hcur _

theorem Enters.fits {ref : ActionRef} {a : Action ListId} {kind : Kind ListId} (h : s.Enters ref kind cur)
    (ha : s.action? ref = some a) (hkind : a.kind = kind) : s.Fits cur := by
  cases h with
  | topic _ hcur => exact fits_topicCursor hcur _
  | branch | meanwhile => exact ⟨rfl, Nat.zero_le _, nofun⟩
  | body condition list =>
    refine ⟨rfl, Nat.zero_le _, fun guard hguard => ?_⟩
    obtain rfl := Option.some.inj hguard
    exact ⟨a, condition, list, ha, hkind⟩

theorem Opens.fits (h : s.Opens cur) : s.Fits cur := by
  cases h with
  | entered ha h => exact h.fits ha rfl
  | answered list _ h =>
    subst h
    exact ⟨rfl, Nat.zero_le _, nofun⟩

theorem Grows.fits (h : s.Grows l l') (hl : ∀ cur ∈ l.cursors, s.Fits cur) : ∀ cur ∈ l'.cursors, s.Fits cur := by
  induction h with
  | refl => exact hl
  | tail _ hchange ih =>
    intro cur' hcur'
    obtain ⟨i, hi⟩ := List.getElem?_of_mem hcur'
    rcases hchange.reforms.origin hi with ⟨cur, hcur, hshifts⟩ | ⟨-, hroot⟩ | ⟨-, hopens⟩
    · exact (ih cur (List.mem_of_getElem? hcur)).shifts hshifts
    · exact fits_root hroot
    · exact hopens.fits

theorem Grown.fits (h : s.Grown l) : ∀ cur ∈ l.cursors, s.Fits cur := by
  cases h with
  | main h => exact h.fits nofun
  | topic h =>
    refine Grows.fits h fun cur hcur => ?_
    obtain ⟨found, hfound, rfl⟩ := List.mem_map.mp hcur
    exact fits_topicCursor (Option.mem_toList.mp hfound) _

/-! ### The outermost list -/

/-- The outermost list of a lane that is not empty stays the same. -/
theorem Grows.outermost (h : s.Grows l l') (hl : l.cursors[0]? = some cur) :
    ∃ cur', l'.cursors[0]? = some cur' ∧ cur.Shifts cur' := by
  induction h with
  | refl => exact ⟨cur, hl, .refl cur⟩
  | @tail m m' _ hchange ih =>
    obtain ⟨below, hbelow, hshifts⟩ := ih
    have hne : m.cursors ≠ [] := by
      rintro hnil
      simp [hnil] at hbelow
    have hpos := List.length_pos_iff.mpr (hchange.reforms.ne_nil hne)
    have hcur' : m'.cursors[0]? = some m'.cursors[0] := List.getElem?_eq_getElem hpos
    refine ⟨_, hcur', ?_⟩
    rcases hchange.reforms.origin hcur' with ⟨old, hold, hmoves⟩ | ⟨hnil, -⟩ | ⟨hinner, -⟩
    · obtain rfl := Option.some.inj (hbelow.symm.trans hold)
      exact hshifts.trans hmoves
    · exact absurd hnil hne
    · exact absurd hinner (Nat.lt_irrefl 0)

/-! ### Actions that have entered lists -/

/-- The action that has entered the list is there. -/
def Owns (s : Session) (cur : Cursor) : Prop := ∀ ref, cur.parent = some ref → (s.action? ref).isSome

theorem owns_root (h : s.root? = some cur) : s.Owns cur := by
  unfold root? at h
  split at h
  · obtain rfl := Option.some.inj h
    nofun
  · obtain ⟨_, -, hcur⟩ := Option.bind_eq_some_iff.mp h
    obtain ⟨_, -, rfl⟩ := Option.map_eq_some_iff.mp hcur
    nofun

theorem Enters.parent {ref : ActionRef} {kind : Kind ListId} (h : s.Enters ref kind cur) : cur.parent = some ref := by
  cases h <;> rfl

theorem Opens.owns (h : s.Opens cur) : s.Owns cur := by
  intro ref href
  cases h with
  | entered ha h =>
    obtain rfl := Option.some.inj (h.parent.symm.trans href)
    exact Option.isSome_of_eq_some ha
  | answered list ha h =>
    subst h
    obtain rfl := Option.some.inj href
    exact Option.isSome_of_eq_some ha

theorem Grows.owns (h : s.Grows l l') (hl : ∀ cur ∈ l.cursors, s.Owns cur) : ∀ cur ∈ l'.cursors, s.Owns cur := by
  induction h with
  | refl => exact hl
  | tail _ hchange ih =>
    intro cur' hcur'
    obtain ⟨i, hi⟩ := List.getElem?_of_mem hcur'
    rcases hchange.reforms.origin hi with ⟨cur, hcur, hshifts⟩ | ⟨-, hroot⟩ | ⟨-, hopens⟩
    · exact fun ref href => ih cur (List.mem_of_getElem? hcur) ref (hshifts.parent ▸ href)
    · exact owns_root hroot
    · exact hopens.owns

end Session
end Dialogue
