/-! Tables from names to values, kept in the order of the names. One content has one table, so equal look-ups mean
    equal tables (`Table.ext_get?`). -/

namespace Dialogue

/-- Entries in ascending order of their names, one a name. -/
structure Table (α : Type) where
  entries : List (String × α)
  sorted : entries.Pairwise fun a b => a.1 < b.1
  deriving DecidableEq, Repr

namespace Table
variable {α : Type}

/-- Puts an entry where its name belongs, in place of one of the same name. -/
def place (name : String) (value : α) : List (String × α) → List (String × α)
  | [] => [(name, value)]
  | e :: rest =>
    if name < e.1 then (name, value) :: e :: rest
    else if e.1 < name then e :: place name value rest
    else (name, value) :: rest

theorem mem_place {name : String} {value : α} {x : String × α} :
    ∀ {l : List (String × α)}, x ∈ place name value l → x = (name, value) ∨ x ∈ l
  | [], h => by simpa [place] using h
  | e :: rest, h => by
    unfold place at h
    split at h
    · simpa using h
    · split at h
      · rcases List.mem_cons.mp h with rfl | h
        · exact Or.inr List.mem_cons_self
        · rcases mem_place h with h | h
          · exact Or.inl h
          · exact Or.inr (List.mem_cons_of_mem _ h)
      · rcases List.mem_cons.mp h with h | h
        · exact Or.inl h
        · exact Or.inr (List.mem_cons_of_mem _ h)

theorem sorted_place {name : String} {value : α} :
    ∀ {l : List (String × α)}, l.Pairwise (fun a b => a.1 < b.1) →
      (place name value l).Pairwise fun a b => a.1 < b.1
  | [], _ => by simp [place]
  | e :: rest, h => by
    have ⟨hhead, htail⟩ := List.pairwise_cons.mp h
    unfold place
    split
    case isTrue hlt =>
      refine List.pairwise_cons.mpr ⟨fun x hx => ?_, h⟩
      rcases List.mem_cons.mp hx with rfl | hx
      · exact hlt
      · exact String.lt_trans hlt (hhead x hx)
    case isFalse hge =>
      split
      case isTrue hlt =>
        refine List.pairwise_cons.mpr ⟨fun x hx => ?_, sorted_place htail⟩
        rcases mem_place hx with rfl | hx
        · exact hlt
        · exact hhead x hx
      case isFalse hle =>
        have heq : name = e.1 := String.le_antisymm (String.not_lt.mp hle) (String.not_lt.mp hge)
        exact List.pairwise_cons.mpr ⟨fun x hx => heq ▸ hhead x hx, htail⟩

def empty : Table α := ⟨[], .nil⟩

instance : Inhabited (Table α) := ⟨empty⟩

def insert (t : Table α) (name : String) (value : α) : Table α :=
  ⟨place name value t.entries, sorted_place t.sorted⟩

def get? (t : Table α) (name : String) : Option α := t.entries.lookup name

/-- Of several values for a name the last one counts. -/
def ofList (l : List (String × α)) : Table α := l.foldl (fun t e => t.insert e.1 e.2) empty

/-! ### Look-up -/

theorem lookup_place_self {name : String} {value : α} :
    ∀ l : List (String × α), (place name value l).lookup name = some value
  | [] => by simp [place]
  | ⟨b, y⟩ :: rest => by
    unfold place
    split
    · simp
    · split
      case isTrue hlt =>
        have hne : (name == b) = false := beq_false_of_ne fun h => String.lt_irrefl _ (h ▸ hlt)
        simp [List.lookup_cons, hne, lookup_place_self rest]
      · simp

theorem lookup_place_of_ne {name other : String} {value : α} (h : other ≠ name) :
    ∀ l : List (String × α), (place name value l).lookup other = l.lookup other
  | [] => by simp [place, List.lookup_cons, beq_false_of_ne h]
  | ⟨b, y⟩ :: rest => by
    unfold place
    split
    · simp [List.lookup_cons, beq_false_of_ne h]
    case isFalse hge =>
      split
      · simp only [List.lookup_cons, lookup_place_of_ne h rest]
      case isFalse hle =>
        obtain rfl : name = b := String.le_antisymm (String.not_lt.mp hle) (String.not_lt.mp hge)
        simp [List.lookup_cons, beq_false_of_ne h]

@[simp] theorem get?_empty (name : String) : (empty : Table α).get? name = none := rfl

@[simp] theorem get?_insert_self (t : Table α) (name : String) (value : α) :
    (t.insert name value).get? name = some value :=
  lookup_place_self t.entries

theorem get?_insert_of_ne (t : Table α) {name other : String} (value : α) (h : other ≠ name) :
    (t.insert name value).get? other = t.get? other :=
  lookup_place_of_ne h t.entries

theorem get?_insert (t : Table α) (name other : String) (value : α) :
    (t.insert name value).get? other = if other = name then some value else t.get? other := by
  by_cases h : other = name
  · simp [h]
  · simp [h, get?_insert_of_ne]

/-! ### Equal look-ups -/

theorem lookup_eq_none_of_lt {name : String} :
    ∀ {l : List (String × α)}, (∀ e ∈ l, name < e.1) → l.lookup name = none
  | [], _ => rfl
  | ⟨b, y⟩ :: rest, h => by
    have hlt : name < b := h (b, y) List.mem_cons_self
    have hne : (name == b) = false := beq_false_of_ne fun heq => String.lt_irrefl b (heq ▸ hlt)
    simp only [List.lookup_cons, hne]
    exact lookup_eq_none_of_lt fun x hx => h x (List.mem_cons_of_mem _ hx)

theorem eq_of_lookup_eq :
    ∀ {l m : List (String × α)}, l.Pairwise (fun a b => a.1 < b.1) → m.Pairwise (fun a b => a.1 < b.1) →
      (∀ name, l.lookup name = m.lookup name) → l = m
  | [], [], _, _, _ => rfl
  | [], ⟨b, y⟩ :: _, _, _, h => by simpa [List.lookup_cons] using h b
  | ⟨a, x⟩ :: _, [], _, _, h => by simpa [List.lookup_cons] using h a
  | ⟨a, x⟩ :: l, ⟨b, y⟩ :: m, hl, hm, h => by
    have ⟨hl₁, hl₂⟩ := List.pairwise_cons.mp hl
    have ⟨hm₁, hm₂⟩ := List.pairwise_cons.mp hm
    have hab : a = b := by
      rcases Std.lt_trichotomy a b with hlt | heq | hgt
      · have := h a
        rw [lookup_eq_none_of_lt (l := (b, y) :: m)] at this
        · simp at this
        · intro e he
          rcases List.mem_cons.mp he with rfl | he
          · exact hlt
          · exact String.lt_trans hlt (hm₁ e he)
      · exact heq
      · have := h b
        rw [lookup_eq_none_of_lt (l := (a, x) :: l)] at this
        · simp at this
        · intro e he
          rcases List.mem_cons.mp he with rfl | he
          · exact hgt
          · exact String.lt_trans hgt (hl₁ e he)
    subst hab
    have hxy : x = y := by simpa using h a
    subst hxy
    refine congrArg _ (eq_of_lookup_eq hl₂ hm₂ fun name => ?_)
    by_cases hn : name = a
    · subst hn
      rw [lookup_eq_none_of_lt hl₁, lookup_eq_none_of_lt hm₁]
    · have := h name
      simpa [List.lookup_cons, beq_false_of_ne hn] using this

/-- Tables with the same look-ups are the same table. -/
theorem ext_get? {t u : Table α} (h : ∀ name, t.get? name = u.get? name) : t = u := by
  obtain ⟨l, hl⟩ := t
  obtain ⟨m, hm⟩ := u
  obtain rfl : l = m := eq_of_lookup_eq hl hm h
  rfl

end Table
end Dialogue
