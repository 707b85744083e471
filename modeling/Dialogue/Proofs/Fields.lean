import Dialogue.Proofs.Spelling
import Dialogue.Json.Variant
import Dialogue.Script.Encode

/-! Values are read back from their drafts. A decoder reads a value from what has been written of it (`Reads`) as long
    as the text is not nested too deep for the levels that are left (`Fits`); so do records whose fields are written
    in their order (`Fills`), and values that name their variant (`Tagged`). -/

namespace Dialogue

namespace Table
variable {α : Type}

theorem place_last {name : String} {value : α} : ∀ {l : List (String × α)}, (∀ e ∈ l, e.1 < name) →
    place name value l = l ++ [(name, value)]
  | [], _ => rfl
  | e :: rest, h => by
    have hlt : e.1 < name := h e List.mem_cons_self
    rw [place, if_neg fun hgt => String.lt_irrefl _ (String.lt_trans hgt hlt), if_pos hlt,
      place_last fun e he => h e (List.mem_cons_of_mem _ he), List.cons_append]

theorem foldl_insert_entries : ∀ {l : List (String × α)} {t : Table α},
    (t.entries ++ l).Pairwise (fun a b => a.1 < b.1) →
    (l.foldl (fun t e => t.insert e.1 e.2) t).entries = t.entries ++ l
  | [], t, _ => by simp
  | e :: l, t, h => by
    have hlast : ∀ e' ∈ t.entries, e'.1 < e.1 := fun e' he' =>
      (List.pairwise_append.mp h).2.2 e' he' e List.mem_cons_self
    have hentries : (t.insert e.1 e.2).entries = t.entries ++ [e] := place_last hlast
    rw [List.foldl_cons, foldl_insert_entries (by rw [hentries]; simpa using h), hentries]
    simp

/-- Entries in the order of their names are a table as they are. -/
theorem ofList_entries (t : Table α) : ofList t.entries = t := by
  have h : (ofList t.entries).entries = t.entries := foldl_insert_entries (t := .empty) t.sorted
  cases hl : ofList t.entries
  cases t
  simp_all

end Table

namespace Json
open Draft

variable {σ τ α β : Type} {n k level : Nat}

/-! ### What is left of the levels -/

/-- A value is nested no deeper than the levels that are left, and its reals are read back. -/
structure Fits (level : Nat) (j : Json) : Prop where
  nested : j.depth ≤ level
  reads : ∀ x ∈ j.reals, ReadsBack x

theorem itemDepth_le (items : List Json) : itemDepth items ≤ level ↔ ∀ j ∈ items, j.depth ≤ level := by
  induction items with
  | nil => simp [itemDepth]
  | cons item items ih => rw [itemDepth, Nat.max_le, ih, List.forall_mem_cons]

theorem memberDepth_le (members : List (String × Json)) :
    memberDepth members ≤ level ↔ ∀ e ∈ members, e.2.depth ≤ level := by
  induction members with
  | nil => simp [memberDepth]
  | cons e members ih => rw [memberDepth, Nat.max_le, ih, List.forall_mem_cons]

theorem itemReals_eq (items : List Json) : itemReals items = items.flatMap reals := by
  induction items with
  | nil => rfl
  | cons item items ih => rw [itemReals, ih, List.flatMap_cons]

theorem memberReals_eq (members : List (String × Json)) : memberReals members = members.flatMap fun e => e.2.reals := by
  induction members with
  | nil => rfl
  | cons e members ih => rw [memberReals, ih, List.flatMap_cons]

theorem Fits.item {items : List Json} (h : Fits (level + 1) (.array items)) : ∀ j ∈ items, Fits level j := by
  intro j hj
  have hnested : itemDepth items + 1 ≤ level + 1 := h.nested
  refine ⟨(itemDepth_le items).mp (by omega) j hj, fun x hx => h.reads x ?_⟩
  rw [reals, itemReals_eq]
  exact List.mem_flatMap.mpr ⟨j, hj, hx⟩

theorem Fits.member {members : List (String × Json)} (h : Fits (level + 1) (.object members)) :
    ∀ e ∈ members, Fits level e.2 := by
  intro e he
  have hnested : memberDepth members + 1 ≤ level + 1 := h.nested
  refine ⟨(memberDepth_le members).mp (by omega) e he, fun x hx => h.reads x ?_⟩
  rw [reals, memberReals_eq]
  exact List.mem_flatMap.mpr ⟨e, he, hx⟩

theorem not_fits_array {items : List Json} : ¬Fits 0 (.array items) := fun h => by
  have hnested : itemDepth items + 1 ≤ 0 := h.nested
  omega

theorem not_fits_object {members : List (String × Json)} : ¬Fits 0 (.object members) := fun h => by
  have hnested : memberDepth members + 1 ≤ 0 := h.nested
  omega

theorem memberDrafts_eq (members : List (String × Json)) :
    memberDrafts members = members.map fun e => (.ok e.1, e.2.draft) := by
  induction members with
  | nil => rfl
  | cons e members ih => rw [memberDrafts, ih, List.map_cons]

/-- Members that have been passed are as good as read. -/
theorem map_ok_drafts (ms : List (String × Json)) :
    (ms.map fun e => (e.1, e.2.draft)).map (fun e => (.ok e.1, e.2)) = memberDrafts ms := by
  rw [memberDrafts_eq, List.map_map]
  rfl

/-! ### Decoders -/

/-- A value is read back from what has been written of it, with at most `n` levels left; it also passes as a value
    that is only checked. -/
def Reads (n : Nat) (decode : Decoder α) (j : Json) (x : α) : Prop :=
  ∀ m : Mode, m.levels ≤ n → Fits m.levels j → decode m j.draft = .ok x ∧ j.draft.check m.levels = .ok ()

variable {decode : Decoder α} {j : Json} {x : α}

theorem Reads.mono (h : Reads n decode j x) (hk : k ≤ n) : Reads k decode j x := fun m hm => h m (Nat.le_trans hm hk)

/-- No value that takes a level is written where none is left. -/
theorem reads_zero (h : ¬Fits 0 j) : Reads 0 decode j x := fun _ hm hfits => absurd (Nat.le_zero.mp hm ▸ hfits) h

theorem Reads.map (h : Reads n decode j x) (f : α → β) : Reads n (fun m d => f <$> decode m d) j (f x) :=
  fun m hm hfits => (h m hm hfits).imp_left fun hdecode => by simp only [hdecode]; rfl

theorem reads_bool (b : Bool) : Reads n .bool (.bool b) b := fun m _ _ => ⟨rfl, by rw [draft, check]⟩

theorem reads_string (s : String) : Reads n .string (.string s) s := fun m _ _ => ⟨rfl, by rw [draft, check]⟩

theorem reads_int32 (v : Int32) : Reads n .int32 (ofInt32 v) v := by
  intro m _ _
  have hlow := Int32.minValue_le_toInt v
  have hhigh := Int32.toInt_le v
  have hdraft : (ofInt32 v).draft = .number (.int v.toInt) := by
    rw [ofInt32, draft]
    refine numberDraft_intChars ?_
    have hbound : Numeral.bound / 2 = 2 ^ 63 := by decide
    have := Int32.le_toInt v
    have := Int32.toInt_lt v
    omega
  rw [hdraft]
  exact ⟨by rw [Decoder.int32, if_pos ⟨hlow, hhigh⟩, Int32.ofInt_toInt], by rw [check]⟩

theorem reads_seconds (v : Seconds) : Reads n .seconds (.real v) v := by
  intro m _ h
  obtain ⟨-, number, hdraft, hseconds⟩ := (h.reads v (by simp [reals])).number
  rw [draft, hdraft]
  exact ⟨hseconds m, by rw [check]⟩

/-- A value that may be absent is read back if no value is written as `null`. -/
theorem Reads.optional {f : α → Json} {o : Option α} (h : ∀ x, o = some x → Reads n decode (f x) x)
    (hnull : ∀ x, (f x).draft ≠ .null) : Reads n (.optional decode) (ofOption f o) o := by
  intro m hm hfits
  match o with
  | none => exact ⟨rfl, by rw [ofOption, draft, check]⟩
  | some x =>
    obtain ⟨hdecode, hcheck⟩ := h x rfl m hm hfits
    refine ⟨?_, hcheck⟩
    simp only [Decoder.optional, ofOption]
    split
    case h_1 heq => exact absurd heq (hnull x)
    case h_2 => rw [hdecode]; rfl

theorem reads_oneOf {values : List (String × α)} {name : String} (h : values.lookup name = some x) :
    Reads n (.oneOf values) (.string name) x := by
  intro m _ _
  refine ⟨?_, by rw [draft, check]⟩
  simp [Decoder.oneOf, draft, h]

/-! ### Lists and tables -/

theorem checkItems_drafts {f : β → Json} : ∀ {xs : List β}, (∀ x ∈ xs, (f x).draft.check level = .ok ()) →
    checkItems level (drafts (xs.map f)) = .ok ()
  | [], _ => by rw [List.map_nil, drafts, checkItems]
  | x :: xs, h => by
    rw [List.map_cons, drafts, checkItems, h x List.mem_cons_self]
    exact checkItems_drafts fun x hx => h x (List.mem_cons_of_mem _ hx)

theorem checkMembers_memberDrafts : ∀ {ms : List (String × Json)}, (∀ e ∈ ms, e.2.draft.check level = .ok ()) →
    checkMembers level (memberDrafts ms) = .ok ()
  | [], _ => by rw [memberDrafts, checkMembers]
  | ⟨name, value⟩ :: ms, h => by
    rw [memberDrafts, checkMembers, h (name, value) List.mem_cons_self]
    exact checkMembers_memberDrafts fun e he => h e (List.mem_cons_of_mem _ he)

theorem mapM_drafts {m : Mode} {f : α → Json} : ∀ {xs : List α}, (∀ x ∈ xs, decode m (f x).draft = .ok x) →
    (drafts (xs.map f)).mapM (decode m) = .ok xs
  | [], _ => rfl
  | x :: xs, h => by
    rw [List.map_cons, drafts, List.mapM_cons, h x List.mem_cons_self,
      mapM_drafts fun x hx => h x (List.mem_cons_of_mem _ hx)]
    rfl

theorem Reads.list {f : α → Json} {xs : List α} (h : ∀ x ∈ xs, Reads n decode (f x) x) :
    Reads (n + 1) (.list decode) (.array (xs.map f)) xs := by
  rintro ⟨_ | levels, checked⟩ hm hfits
  · exact absurd hfits not_fits_array
  · have hreads : ∀ x ∈ xs, _ := fun x hx =>
      h x hx ⟨levels, checked⟩ (Nat.le_of_succ_le_succ hm) (hfits.item (f x) (List.mem_map_of_mem hx))
    rw [draft]
    constructor
    · simp only [Decoder.list, Mode.enter, bind, Except.bind, mapM_drafts fun x hx => (hreads x hx).1]
      rfl
    · rw [check, checkItems_drafts fun x hx => (hreads x hx).2]
      rfl

/-- Reads a member of a table. -/
def entry (decode : Decoder α) (m : Mode) : Except Fault String × Draft → Except ReadError (String × α)
  | (name, value) => do
    let name ← faulty name
    let value ← decode m value
    return (name, value)

theorem mapM_memberDrafts {m : Mode} {f : α → Json} : ∀ {l : List (String × α)},
    (∀ e ∈ l, decode m (f e.2).draft = .ok e.2) →
    (memberDrafts (l.map fun e => (e.1, f e.2))).mapM (entry decode m) = .ok l
  | [], _ => rfl
  | e :: l, h => by
    have hentry : entry decode m (.ok e.1, (f e.2).draft) = .ok e := by
      simp only [entry, faulty, bind, Except.bind, h e List.mem_cons_self]
      rfl
    rw [List.map_cons, memberDrafts, List.mapM_cons, hentry,
      mapM_memberDrafts fun e he => h e (List.mem_cons_of_mem _ he)]
    rfl

/-- Whoever reads an object enters a level, and checks it member by member. -/
theorem reads_object {ms : List (String × Json)}
    (h : ∀ m : Mode, m.levels ≤ n → (∀ e ∈ ms, Fits m.levels e.2) →
      decode ⟨m.levels + 1, m.checked⟩ (.object (memberDrafts ms) none) = .ok x ∧
        ∀ e ∈ ms, e.2.draft.check m.levels = .ok ()) :
    Reads (n + 1) decode (.object ms) x := by
  rintro ⟨_ | levels, checked⟩ hm hfits
  · exact absurd hfits not_fits_object
  · obtain ⟨hdecode, hchecks⟩ := h ⟨levels, checked⟩ (Nat.le_of_succ_le_succ hm) hfits.member
    refine ⟨hdecode, ?_⟩
    rw [draft, check, checkMembers_memberDrafts hchecks]
    rfl

theorem Reads.table {f : α → Json} {t : Table α} (h : ∀ x, Reads n decode (f x) x) :
    Reads (n + 1) (.table decode) (ofTable f t) t := by
  refine reads_object fun m hm hfits => ?_
  have hreads : ∀ e ∈ t.entries, _ := fun e he =>
    h e.2 m hm (hfits (e.1, f e.2) (List.mem_map_of_mem (f := fun e => (e.1, f e.2)) he))
  constructor
  · show ((memberDrafts _).mapM (entry decode m) >>= fun found => Except.ok (Table.ofList found)) = _
    rw [mapM_memberDrafts fun e he => (hreads e he).1]
    exact congrArg Except.ok t.ofList_entries
  · intro e he
    obtain ⟨e', he', rfl⟩ := List.mem_map.mp he
    exact (hreads e' he').2

/-! ### Records -/

namespace Record

/-- The names of the fields of a record. -/
def names (r : Record σ α) : List String := r.slots.map (·.name)

@[simp] theorem names_field (name : String) (decode : Decoder α) (absent : Option α) :
    (field name decode absent).names = [name] := rfl

@[simp] theorem names_required (name : String) (decode : Decoder α) : (required name decode).names = [name] := rfl

@[simp] theorem names_defaulting (name : String) (decode : Decoder α) (absent : α) :
    (defaulting name decode absent).names = [name] := rfl

@[simp] theorem names_optional (name : String) (decode : Decoder α) : (optional name decode).names = [name] := rfl

@[simp] theorem names_and (r : Record σ α) (s : Record τ β) : (r.and s).names = r.names ++ s.names := by
  simp [names, Record.and, Function.comp_def]

@[simp] theorem names_map (f : α → β) (r : Record σ α) : (r.map f).names = r.names := rfl

variable {r : Record σ α} {s : Record τ β} {pass : Draft → Except ReadError Unit} {m : Mode}

theorem find?_slots_eq_none {name : String} (h : name ∉ r.names) :
    r.slots.find? (fun slot => slot.name == name) = none := by
  simpa [names] using h

/-- Members that are no field of a record are passed. -/
theorem fillByName_pass : ∀ {ms : List (String × Json)} (x : σ), (∀ e ∈ ms, e.1 ∉ r.names) →
    (∀ e ∈ ms, pass e.2.draft = .ok ()) →
    r.fillByName pass m (memberDrafts ms) x = .ok (x, ms.map fun e => (e.1, e.2.draft))
  | [], _, _, _ => rfl
  | e :: ms, x, hnames, hpass => by
    rw [memberDrafts, fillByName]
    simp only [faulty, bind, Except.bind, find?_slots_eq_none (hnames e List.mem_cons_self),
      hpass e List.mem_cons_self, fillByName_pass x (fun e he => hnames e (List.mem_cons_of_mem _ he))
        (fun e he => hpass e (List.mem_cons_of_mem _ he))]
    rfl

theorem find?_slots_and {name : String} (h : name ∉ r.names) :
    (r.and s).slots.find? (fun slot => slot.name == name) = (s.slots.find? fun slot => slot.name == name).map
      fun slot => {
        name := slot.name
        filled := fun x => slot.filled x.2
        fill := fun m d x => do return (x.1, ← slot.fill m d x.2) } := by
  simp only [Record.and, List.find?_append, List.find?_map, Function.comp_def, find?_slots_eq_none h, Option.map_none,
    Option.none_or]

theorem fillByName_slot {name : String} {d : Draft} {x y : σ} (ms : Members)
    (h : ∃ slot, r.slots.find? (fun slot => slot.name == name) = some slot ∧ slot.filled x = false ∧
      slot.fill m d x = .ok y) :
    r.fillByName pass m ((.ok name, d) :: ms) x = r.fillByName pass m ms y := by
  obtain ⟨slot, hfind, hfilled, hfill⟩ := h
  rw [fillByName]
  simp only [faulty, bind, Except.bind, hfind, hfilled, hfill]
  rfl

/-- Where no member is left over, the first one has been read into its slot. -/
theorem slot_of_fillByName {name : String} {d : Draft} {ms : Members} {x y : σ}
    (h : r.fillByName pass m ((.ok name, d) :: ms) x = .ok (y, [])) :
    ∃ z, (∃ slot, r.slots.find? (fun slot => slot.name == name) = some slot ∧ slot.filled x = false ∧
      slot.fill m d x = .ok z) ∧ r.fillByName pass m ms z = .ok (y, []) := by
  rw [fillByName] at h
  simp only [faulty, bind, Except.bind] at h
  cases hslot : r.slots.find? fun slot => slot.name == name with
  | none =>
    simp only [hslot] at h
    split at h
    · cases h
    · split at h <;> cases h
  | some slot =>
    simp only [hslot] at h
    cases hfilled : slot.filled x with
    | true => simp [hfilled] at h
    | false =>
      cases hfill : slot.fill m d x with
      | error => simp [hfilled, hfill] at h
      | ok z => exact ⟨z, ⟨slot, rfl, hfilled, hfill⟩, by simpa [hfilled, hfill] using h⟩

/-- The fields of the second of two records are filled beside those of the first. -/
theorem fillByName_and : ∀ {ms : List (String × Json)} (x : σ) {y y' : τ}, (∀ e ∈ ms, e.1 ∉ r.names) →
    s.fillByName pass m (memberDrafts ms) y = .ok (y', []) →
    (r.and s).fillByName pass m (memberDrafts ms) (x, y) = .ok ((x, y'), [])
  | [], _, y, y', _, h => by
    obtain rfl : y = y' := by simpa [fillByName, memberDrafts] using h
    rfl
  | e :: ms, x, y, y', hnames, h => by
    obtain ⟨z, ⟨slot, hfind, hfilled, hfill⟩, htail⟩ := slot_of_fillByName h
    have hfind' := find?_slots_and (s := s) (hnames e List.mem_cons_self)
    rw [hfind, Option.map_some] at hfind'
    rw [memberDrafts, fillByName_slot _ ⟨_, hfind', hfilled, by simp only [hfill]; rfl⟩]
    exact fillByName_and x (fun e he => hnames e (List.mem_cons_of_mem _ he)) htail

/-- Members that are all fields of the record leave the other members to be read. -/
theorem fillByName_append : ∀ {ms : List (String × Json)} {x y : σ} (ms' : List (String × Json)),
    r.fillByName pass m (memberDrafts ms) x = .ok (y, []) →
    r.fillByName pass m (memberDrafts (ms ++ ms')) x = r.fillByName pass m (memberDrafts ms') y
  | [], x, y, ms', h => by
    obtain rfl : x = y := by simpa [fillByName, memberDrafts] using h
    rfl
  | e :: ms, x, y, ms', h => by
    obtain ⟨z, hslot, htail⟩ := slot_of_fillByName h
    rw [List.cons_append, memberDrafts, fillByName_slot _ hslot]
    exact fillByName_append ms' htail

theorem fillByName_map (f : α → β) : ∀ (ms : Members) (x : σ),
    (r.map f).fillByName pass m ms x = r.fillByName pass m ms x
  | [], _ => rfl
  | (name, d) :: ms, x => by
    rw [fillByName, fillByName]
    simp only [fillByName_map f ms]
    rfl

end Record

/-- A record is read back from members that are its fields in their order. -/
structure Fills (n : Nat) (r : Record σ α) (ms : List (String × Json)) (x : α) : Prop where
  names : ms.map (·.1) = r.names
  fills : ∀ m : Mode, m.levels ≤ n → (∀ e ∈ ms, Fits m.levels e.2) → r.names.Nodup →
    ∃ full, (∀ pass, r.fillByName pass m (memberDrafts ms) r.blank = .ok (full, [])) ∧ r.complete full = .ok x
  checks : ∀ level ≤ n, (∀ e ∈ ms, Fits level e.2) → ∀ e ∈ ms, e.2.draft.check level = .ok ()

section
variable {name : String} {absent : Option α} {r : Record σ α} {s : Record τ β} {ms : List (String × Json)} {y : β}

theorem Reads.check (h : Reads n decode j x) (hle : level ≤ n) (hfits : Fits level j) :
    j.draft.check level = .ok () :=
  (h ⟨level, false⟩ hle hfits).2

theorem Fills.field (h : Reads n decode j x) : Fills n (.field name decode absent) [(name, j)] x where
  names := rfl
  fills m hm hfits _ := by
    have hdecode := (h m hm (hfits (name, j) List.mem_cons_self)).1
    refine ⟨some x, fun pass => ?_, rfl⟩
    refine Record.fillByName_slot [] ⟨_, List.find?_cons_of_pos (beq_self_eq_true name), rfl, ?_⟩
    simp only [hdecode]
    rfl
  checks level hlevel hfits := by
    simpa using h.check hlevel (hfits (name, j) List.mem_cons_self)

theorem Fills.cons (h : Reads n decode j x) (hs : Fills n s ms y) :
    Fills n ((Record.field name decode absent).and s) ((name, j) :: ms) (x, y) where
  names := by simp [hs.names]
  fills m hm hfits hnodup := by
    have ⟨hname, hnodup'⟩ : name ∉ s.names ∧ s.names.Nodup := by simpa using hnodup
    have hdecode := (h m hm (hfits (name, j) List.mem_cons_self)).1
    obtain ⟨full, hfill, hcomplete⟩ := hs.fills m hm (fun e he => hfits e (List.mem_cons_of_mem _ he)) hnodup'
    refine ⟨(some x, full), fun pass => ?_, ?_⟩
    rotate_left
    · simp only [Record.and, Record.field, hcomplete]
      rfl
    have hrest : ∀ e ∈ ms, e.1 ∉ (Record.field name decode absent).names := fun e he heq => by
      have hmem : e.1 ∈ s.names := hs.names ▸ List.mem_map_of_mem he
      simp_all
    refine (Record.fillByName_slot (r := (Record.field name decode absent).and s) (memberDrafts ms)
      ⟨_, List.find?_cons_of_pos (by exact beq_self_eq_true name), rfl, ?_⟩).trans
      (Record.fillByName_and (some x) hrest (hfill pass))
    simp only [hdecode]
    rfl
  checks level hlevel hfits e he := by
    rcases List.mem_cons.mp he with rfl | he
    · exact h.check hlevel (hfits _ List.mem_cons_self)
    · exact hs.checks level hlevel (fun e he => hfits e (List.mem_cons_of_mem _ he)) e he

theorem Fills.map (h : Fills n r ms x) (f : α → β) : Fills n (r.map f) ms (f x) where
  names := h.names
  fills m hm hfits hnodup := by
    obtain ⟨full, hfill, hcomplete⟩ := h.fills m hm hfits hnodup
    refine ⟨full, fun pass => ?_, ?_⟩
    · rw [Record.fillByName_map]
      exact hfill pass
    · simp only [Record.map, hcomplete]
      rfl
  checks := h.checks

theorem Fills.ofMembers (h : Fills n r ms x) (hnames : r.names.Nodup) {m : Mode} (hm : m.levels ≤ n)
    (hfits : ∀ e ∈ ms, Fits m.levels e.2) : r.ofMembers m (memberDrafts ms) none = .ok x := by
  obtain ⟨full, hfill, hcomplete⟩ := h.fills m hm hfits hnames
  simp only [Record.ofMembers, hfill, bind, Except.bind, Record.completeNamed, hcomplete]
  rfl

/-- A record is read back from an object of its fields. -/
theorem Fills.reads (h : Fills n r ms x) (hnames : r.names.Nodup) (what : String) :
    Reads (n + 1) (r.decode what) (.object ms) x :=
  reads_object fun m hm hfits => ⟨h.ofMembers hnames hm hfits, h.checks m.levels hm hfits⟩

end

/-! ### Values of several variants -/

/-- A value is read back from members that begin with the name of its variant. -/
def Tagged (n : Nat) (variants : List (Variant α)) (ms : List (String × Json)) (x : α) : Prop :=
  ∀ m : Mode, m.levels ≤ n → (∀ e ∈ ms, Fits m.levels e.2) →
    Variant.ofObject variants m (memberDrafts ms) none = .ok x ∧ ∀ e ∈ ms, e.2.draft.check m.levels = .ok ()

section
variable {variants : List (Variant α)} {v : Variant α} {name : String} {ms : List (String × Json)} {r : Record σ α}

/-- Members without a tag are passed and checked. -/
theorem splitTag_pass {m : Mode} : ∀ {ms : List (String × Json)}, (∀ e ∈ ms, e.1 ≠ Variant.tag) →
    (∀ e ∈ ms, e.2.draft.check m.levels = .ok ()) →
    Variant.splitTag variants m (memberDrafts ms) (some v) = .ok (some v, ms.map fun e => (e.1, e.2.draft))
  | [], _, _ => rfl
  | e :: ms, hnames, hchecks => by
    have hname : (e.1 == Variant.tag) = false := beq_false_of_ne (hnames e List.mem_cons_self)
    rw [memberDrafts, Variant.splitTag]
    simp only [faulty, bind, Except.bind, hname, hchecks e List.mem_cons_self,
      splitTag_pass (fun e he => hnames e (List.mem_cons_of_mem _ he))
        fun e he => hchecks e (List.mem_cons_of_mem _ he)]
    rfl

theorem ofObject_tagged {m : Mode} (hv : variants.find? (fun v => v.name == name) = some v)
    (hnames : ∀ e ∈ ms, e.1 ≠ Variant.tag) (hchecks : ∀ e ∈ ms, e.2.draft.check m.levels = .ok ()) :
    Variant.ofObject variants m (memberDrafts ((Variant.tag, .string name) :: ms)) none =
      v.ofMembers { m with checked := true } (ms.map fun e => (e.1, e.2.draft)) := by
  rw [Variant.ofObject, memberDrafts, Variant.splitTag]
  simp only [faulty, bind, Except.bind, beq_self_eq_true, draft, Variant.ofTag, Variant.named, hv,
    splitTag_pass hnames hchecks]
  rfl

theorem Fills.tagged (h : Fills n r ms x) (hv : variants.find? (fun v => v.name == name) = some v)
    (hrecord : ∀ m members, v.ofMembers m members = r.ofMembers m (members.map fun e => (.ok e.1, e.2)) none)
    (hnames : (Variant.tag :: r.names).Nodup) : Tagged n variants ((Variant.tag, .string name) :: ms) x := by
  intro m hm hfits
  have hfits' : ∀ e ∈ ms, Fits m.levels e.2 := fun e he => hfits e (List.mem_cons_of_mem _ he)
  have ⟨htag, hnames'⟩ := List.nodup_cons.mp hnames
  have hchecks := h.checks m.levels hm hfits'
  refine ⟨?_, fun e he => ?_⟩
  · have hne : ∀ e ∈ ms, e.1 ≠ Variant.tag := fun e he heq => htag (heq ▸ h.names ▸ List.mem_map_of_mem he)
    rw [ofObject_tagged hv hne hchecks, hrecord, map_ok_drafts]
    exact h.ofMembers hnames' hm hfits'
  · rcases List.mem_cons.mp he with rfl | he
    · simp [draft, check]
    · exact hchecks e he

/-- A variant with fields is read back from its name and its fields. -/
theorem tagged_record {what : String} (hv : variants.find? (fun v => v.name == name) = some (.record name what r))
    (hnames : (Variant.tag :: r.names).Nodup) (h : Fills n r ms x) :
    Tagged n variants ((Variant.tag, .string name) :: ms) x :=
  h.tagged hv (fun _ _ => rfl) hnames

theorem tagged_keyed (hv : variants.find? (fun v => v.name == name) = some (.keyed name r))
    (hnames : (Variant.tag :: r.names).Nodup) (h : Fills n r ms x) :
    Tagged n variants ((Variant.tag, .string name) :: ms) x :=
  h.tagged hv (fun _ _ => rfl) hnames

/-- A variant without fields is read back from its name. -/
theorem tagged_plain (hv : variants.find? (fun v => v.name == name) = some (.plain name x)) :
    Tagged n variants [(Variant.tag, .string name)] x := by
  intro m _ _
  refine ⟨ofObject_tagged hv (by simp) (by simp), ?_⟩
  simp [draft, check]

/-- A value of several variants is read back from an object that begins with the name of its variant. -/
theorem Tagged.reads (h : Tagged n variants ms x) (what : String) :
    Reads (n + 1) (Variant.decode what variants) (.object ms) x :=
  reads_object h

end

end Json
end Dialogue
