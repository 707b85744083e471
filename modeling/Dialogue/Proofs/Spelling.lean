import Dialogue.Proofs.Numerals

/-! Texts of values are read as they are written. A value may be written with any blanks between its parts
    (`Spacing`), on one line or on many; strings are escaped so that they are read back, whole numbers are written in
    their digits, and of reals it is known that they are read back (`Legible`). So a text is read as the draft of the
    value that it has been written from (`ofText_spaced`). -/

namespace Dialogue
namespace Json
open Draft

variable {c : Char} {cs rest : List Char}

/-! ### Strings -/

/-- A piece of a string stands for a character on its own. -/
def Draft.Piece.Means (p : Piece) (c : Char) : Prop :=
  p = .char c ∨ ∃ n, p = .unit n ∧ isLowSurrogate n = false ∧ isHighSurrogate n = false ∧ Char.ofNat n = c

theorem characters_cons {p : Piece} (h : p.Means c) (ending : Option Fault) (ps : List Piece) :
    characters ending (p :: ps) = (characters ending ps).map (c :: ·) := by
  obtain rfl | ⟨n, rfl, hlow, hhigh, rfl⟩ := h
  · rw [characters]
  · rw [characters.eq_def]
    simp [hlow, hhigh]

theorem unit?_hexDigit : ∀ n < 32, unit? '0' '0' (hexDigit (n / 16)) (hexDigit (n % 16)) = some n := by decide

/-- An escaped character is read as a single piece. -/
theorem pieces_escape (c : Char) :
    ∃ p : Piece, p.Means c ∧ ∀ rest, pieces (escape c ++ rest) = (p :: (pieces rest).1, (pieces rest).2) := by
  unfold escape
  split
  case h_8 hquote hbackslash _ _ _ _ _ =>
    split
    case isTrue hcontrol =>
      refine ⟨.unit c.toNat, .inr ⟨_, rfl, ?_, ?_, Char.ofNat_toNat c⟩, fun rest => ?_⟩
      · simp [isLowSurrogate]; omega
      · simp [isHighSurrogate]; omega
      · simp [pieces, unit?_hexDigit _ hcontrol]
    case isFalse hplain =>
      refine ⟨.char c, .inl rfl, fun rest => ?_⟩
      rw [List.singleton_append, pieces.eq_def]
      split <;> simp_all
  all_goals exact ⟨.char _, .inl rfl, fun rest => by simp [pieces, escaped?]⟩

theorem pieces_flatMap_escape : ∀ cs : List Char, ∃ ps : List Piece, characters none ps = .ok cs ∧
    ∀ rest, pieces (cs.flatMap escape ++ '"' :: rest) = (ps, .ok rest)
  | [] => ⟨[], rfl, fun rest => by simp [pieces]⟩
  | c :: cs => by
    obtain ⟨p, hmeans, hpiece⟩ := pieces_escape c
    obtain ⟨ps, hps, hpieces⟩ := pieces_flatMap_escape cs
    refine ⟨p :: ps, by rw [characters_cons hmeans, hps]; rfl, fun rest => ?_⟩
    rw [List.flatMap_cons, List.append_assoc, hpiece, hpieces]

/-- A string is read back. -/
theorem stringPart_escape (s : String) (rest : List Char) :
    stringPart (s.toList.flatMap escape ++ '"' :: rest) = (.ok s, .ok rest) := by
  obtain ⟨ps, hps, hpieces⟩ := pieces_flatMap_escape s.toList
  simp [stringPart, hpieces, hps, Except.map]

/-! ### Values as they are written and as they are read -/

/-- The blanks between the parts of a text: before an element or a closing bracket, and after a colon. -/
structure Spacing where
  line : Nat → List Char
  colon : List Char
  line_blank : ∀ level, ∀ c ∈ line level, IsBlank c
  colon_blank : ∀ c ∈ colon, IsBlank c

mutual

/-- The text of a value with other blanks than `chars` has. -/
def spaced (s : Spacing) (level : Nat) : Json → List Char
  | .null => ['n', 'u', 'l', 'l']
  | .bool true => ['t', 'r', 'u', 'e']
  | .bool false => ['f', 'a', 'l', 's', 'e']
  | .int n => intChars n
  | .real x => realChars x
  | .string t => quoted t
  | .array [] => ['[', ']']
  | .array (item :: items) =>
    '[' :: s.line (level + 1) ++ spaced s (level + 1) item ++ spacedItems s (level + 1) items ++ s.line level ++ [']']
  | .object [] => ['{', '}']
  | .object (⟨name, value⟩ :: members) =>
    '{' :: s.line (level + 1) ++ quoted name ++ ':' :: s.colon ++ spaced s (level + 1) value ++
      spacedMembers s (level + 1) members ++ s.line level ++ ['}']

def spacedItems (s : Spacing) (level : Nat) : List Json → List Char
  | [] => []
  | item :: items => ',' :: s.line level ++ spaced s level item ++ spacedItems s level items

def spacedMembers (s : Spacing) (level : Nat) : List (String × Json) → List Char
  | [] => []
  | ⟨name, value⟩ :: members =>
    ',' :: s.line level ++ quoted name ++ ':' :: s.colon ++ spaced s level value ++ spacedMembers s level members

end

/-- No blanks at all. -/
def Spacing.none : Spacing where
  line _ := []
  colon := []
  line_blank := by simp
  colon_blank := by simp

/-- Each element and member on a line of its own. -/
def Spacing.lines : Spacing where
  line := newline
  colon := [' ']
  line_blank level := by
    simp only [newline, List.mem_cons, List.mem_replicate]
    rintro c (rfl | ⟨-, rfl⟩) <;> decide
  colon_blank := by simp [IsBlank]

@[simp] theorem Spacing.line_lines : lines.line = newline := rfl

@[simp] theorem Spacing.colon_lines : lines.colon = [' '] := rfl

mutual

theorem spaced_lines (level : Nat) : ∀ j : Json, spaced .lines level j = chars level j
  | .null | .bool true | .bool false | .int _ | .real _ | .string _ | .array [] | .object [] => by
    simp [spaced, chars]
  | .array (item :: items) => by
    simp [spaced, chars, spaced_lines (level + 1) item, spacedItems_lines (level + 1) items]
  | .object (⟨name, value⟩ :: members) => by
    simp [spaced, chars, spaced_lines (level + 1) value, spacedMembers_lines (level + 1) members]

theorem spacedItems_lines (level : Nat) : ∀ items : List Json, spacedItems .lines level items = itemChars level items
  | [] => by simp [spacedItems, itemChars]
  | item :: items => by
    simp [spacedItems, itemChars, spaced_lines level item, spacedItems_lines level items]

theorem spacedMembers_lines (level : Nat) :
    ∀ members : List (String × Json), spacedMembers .lines level members = memberChars level members
  | [] => by simp [spacedMembers, memberChars]
  | ⟨name, value⟩ :: members => by
    simp [spacedMembers, memberChars, spaced_lines level value, spacedMembers_lines level members]

end

mutual

/-- The draft that the text of a value is read as. -/
def draft : Json → Draft
  | .null => .null
  | .bool b => .bool b
  | .int n => numberDraft (intChars n)
  | .real x => numberDraft (realChars x)
  | .string s => .string s
  | .array items => .array (drafts items) none
  | .object members => .object (memberDrafts members) none

def drafts : List Json → List Draft
  | [] => []
  | item :: items => draft item :: drafts items

def memberDrafts : List (String × Json) → List (Except Fault String × Draft)
  | [] => []
  | ⟨name, value⟩ :: members => (.ok name, draft value) :: memberDrafts members

end

mutual

/-- The reals in a value. -/
def reals : Json → List Seconds
  | .real x => [x]
  | .array items => itemReals items
  | .object members => memberReals members
  | _ => []

def itemReals : List Json → List Seconds
  | [] => []
  | item :: items => reals item ++ itemReals items

def memberReals : List (String × Json) → List Seconds
  | [] => []
  | ⟨_, value⟩ :: members => reals value ++ memberReals members

end

mutual

/-- How many arrays and objects stand within each other in a value. -/
def depth : Json → Nat
  | .array items => itemDepth items + 1
  | .object members => memberDepth members + 1
  | _ => 0

def itemDepth : List Json → Nat
  | [] => 0
  | item :: items => max (depth item) (itemDepth items)

def memberDepth : List (String × Json) → Nat
  | [] => 0
  | ⟨_, value⟩ :: members => max (depth value) (memberDepth members)

end

/-! ### Reading a value that has been written -/

/-- A text is read as a draft, whatever comes after it. -/
def ReadsAs (text : List Char) (d : Draft) : Prop :=
  ∀ fuel rest, 2 * text.length ≤ fuel → Apart rest → value fuel (text ++ rest) = (d, some rest)

theorem apart_cons (h : c.isDigit = false ∧ c ≠ '.' ∧ c ≠ 'e' ∧ c ≠ 'E') : Apart (c :: rest) := by
  simpa [Apart] using h

theorem apart_gap {gap : List Char} (h : ∀ c ∈ gap, IsBlank c) (hrest : Apart rest) : Apart (gap ++ rest) := by
  cases gap with
  | nil => exact hrest
  | cons c gap =>
    obtain rfl | rfl | rfl | rfl := h c List.mem_cons_self <;> exact apart_cons (by decide)

theorem value_gap {gap : List Char} (h : ∀ c ∈ gap, IsBlank c) (fuel : Nat) (cs : List Char) :
    value fuel (gap ++ cs) = value fuel cs := by
  cases fuel with
  | zero => rfl
  | succ fuel => rw [value, value, dropBlanks_gap h]

theorem items_gap {gap : List Char} (h : ∀ c ∈ gap, IsBlank c) (fuel : Nat) (cs : List Char) :
    items fuel (gap ++ cs) = items fuel cs := by
  cases fuel with
  | zero => rfl
  | succ fuel => rw [items, items, value_gap h]

theorem members_gap {gap : List Char} (h : ∀ c ∈ gap, IsBlank c) (fuel : Nat) (cs : List Char) :
    members fuel (gap ++ cs) = members fuel cs := by
  cases fuel with
  | zero => rfl
  | succ fuel => rw [members, members, dropBlanks_gap h]

theorem readsAs_letters {text : List Char} {d : Draft}
    (h : ∀ fuel rest, value (fuel + 1) (text ++ rest) = (d, some rest)) (hne : text ≠ []) : ReadsAs text d := by
  intro fuel rest hfuel _
  have hpos := List.length_pos_iff.mpr hne
  obtain ⟨fuel, rfl⟩ : ∃ n, fuel = n + 1 := ⟨fuel - 1, by omega⟩
  exact h fuel rest

theorem readsAs_of_isWhole {text : List Char} (h : IsWhole text) : ReadsAs text (numberDraft text) := by
  intro fuel rest hfuel happart
  have hpos : 0 < text.length := by
    obtain ⟨⟨c, hc, -⟩, -⟩ := h
    cases text <;> simp_all
  obtain ⟨fuel, rfl⟩ : ∃ n, fuel = n + 1 := ⟨fuel - 1, by omega⟩
  exact value_of_isWhole h happart fuel

theorem items_nil (s : Spacing) (level : Nat) {text : List Char} {d : Draft} (htext : ReadsAs text d) (fuel : Nat)
    (rest : List Char) (hfuel : 2 * text.length ≤ fuel) :
    items (fuel + 1) (text ++ (s.line level ++ ']' :: rest)) = ([d], none, some rest) := by
  have happart : Apart (s.line level ++ ']' :: rest) := apart_gap (s.line_blank level) (apart_cons (by decide))
  rw [items, htext fuel _ hfuel happart]
  simp only
  rw [dropBlanks_gap (s.line_blank level), dropBlanks_cons (by decide)]
  rfl

theorem items_cons (s : Spacing) (level : Nat) {text : List Char} {d : Draft} (htext : ReadsAs text d) (fuel : Nat)
    (rest : List Char) (hfuel : 2 * text.length ≤ fuel) {ds : List Draft} {tail : Option Flaw} {r : Option Rest}
    (hrest : items fuel rest = (ds, tail, r)) :
    items (fuel + 1) (text ++ ',' :: (s.line level ++ rest)) = (d :: ds, tail, r) := by
  rw [items, htext fuel _ hfuel (apart_cons (by decide))]
  simp only
  rw [dropBlanks_cons (by decide)]
  simp only [items_gap (s.line_blank level), hrest]

theorem members_nil (s : Spacing) (level : Nat) {text : List Char} {d : Draft} (htext : ReadsAs text d)
    (name : String) (fuel : Nat) (rest : List Char) (hfuel : 2 * text.length ≤ fuel) :
    members (fuel + 1) (quoted name ++ ':' :: (s.colon ++ (text ++ (s.line level ++ '}' :: rest)))) =
      ([(.ok name, d)], none, some rest) := by
  have happart : Apart (s.line level ++ '}' :: rest) := apart_gap (s.line_blank level) (apart_cons (by decide))
  rw [members, quoted, List.cons_append, List.cons_append, dropBlanks_cons (by decide)]
  simp only [List.append_assoc, List.singleton_append, stringPart_escape]
  rw [dropBlanks_cons (by decide)]
  simp only [value_gap s.colon_blank, htext fuel _ hfuel happart]
  rw [dropBlanks_gap (s.line_blank level), dropBlanks_cons (by decide)]
  rfl

theorem members_cons (s : Spacing) (level : Nat) {text : List Char} {d : Draft} (htext : ReadsAs text d)
    (name : String) (fuel : Nat) (rest : List Char) (hfuel : 2 * text.length ≤ fuel)
    {ds : List (Except Fault String × Draft)} {tail : Option Flaw} {r : Option Rest}
    (hrest : members fuel rest = (ds, tail, r)) :
    members (fuel + 1) (quoted name ++ ':' :: (s.colon ++ (text ++ ',' :: (s.line level ++ rest)))) =
      ((.ok name, d) :: ds, tail, r) := by
  have happart : Apart (',' :: (s.line level ++ rest)) := apart_cons (by decide)
  rw [members, quoted, List.cons_append, List.cons_append, dropBlanks_cons (by decide)]
  simp only [List.append_assoc, List.singleton_append, stringPart_escape]
  rw [dropBlanks_cons (by decide)]
  simp only [value_gap s.colon_blank, htext fuel _ hfuel happart]
  rw [dropBlanks_cons (by decide)]
  simp only [members_gap (s.line_blank level), hrest]

theorem spaced_start (s : Spacing) (level : Nat) {j : Json} (hreads : ∀ x ∈ j.reals, ReadsBack x) :
    ∃ c cs, spaced s level j = c :: cs ∧ ¬IsBlank c ∧ c ≠ ']' := by
  have hnumber {text : List Char} (h : IsWhole text) : ∃ c cs, text = c :: cs ∧ ¬IsBlank c ∧ c ≠ ']' := by
    obtain ⟨⟨c, hc, hstart⟩, -⟩ := h
    obtain ⟨cs, rfl⟩ : ∃ cs, text = c :: cs := by
      cases text <;> simp_all
    refine ⟨c, cs, rfl, ?_⟩
    rcases hstart with rfl | hdigit
    · decide
    · exact ⟨not_isBlank_of_isDigit hdigit, fun h => by simp [h] at hdigit⟩
  match j with
  | .null => exact ⟨_, _, by rw [spaced], by decide⟩
  | .bool true => exact ⟨_, _, by rw [spaced], by decide⟩
  | .bool false => exact ⟨_, _, by rw [spaced], by decide⟩
  | .int n => exact hnumber (isWhole_intChars n)
  | .real x => exact hnumber (hreads x (by simp [reals])).number.1
  | .string t => exact ⟨_, _, by rw [spaced, quoted, List.cons_append], by decide⟩
  | .array [] => exact ⟨_, _, by rw [spaced], by decide⟩
  | .array (item :: items) => exact ⟨_, _, by rw [spaced]; rfl, by decide⟩
  | .object [] => exact ⟨_, _, by rw [spaced], by decide⟩
  | .object (⟨name, value⟩ :: members) => exact ⟨_, _, by rw [spaced]; rfl, by decide⟩

theorem value_array {gap : List Char} (hgap : ∀ c ∈ gap, IsBlank c) (hc : ¬IsBlank c ∧ c ≠ ']') {fuel : Nat}
    {ds : List Draft} {tail : Option Flaw} {r : Option Rest} (h : items fuel (c :: cs) = (ds, tail, r)) :
    value (fuel + 1) ('[' :: (gap ++ c :: cs)) = (.array ds tail, r) := by
  rw [value, dropBlanks_cons (by decide)]
  simp only
  rw [dropBlanks_gap hgap, dropBlanks_cons hc.1]
  split
  case h_1 heq => cases heq
  case h_2 heq => exact absurd (List.cons.inj heq).1 hc.2
  case h_3 => rw [h]

theorem value_object {gap : List Char} (hgap : ∀ c ∈ gap, IsBlank c) {fuel : Nat}
    {ds : List (Except Fault String × Draft)} {tail : Option Flaw} {r : Option Rest}
    (h : members fuel ('"' :: cs) = (ds, tail, r)) :
    value (fuel + 1) ('{' :: (gap ++ '"' :: cs)) = (.object ds tail, r) := by
  rw [value, dropBlanks_cons (by decide)]
  simp only
  rw [dropBlanks_gap hgap, dropBlanks_cons (by decide)]
  split
  case h_1 heq => cases heq
  case h_2 => rw [h]

mutual

/-- A text is read as the draft of the value that it has been written from. -/
theorem readsAs_spaced (s : Spacing) (level : Nat) :
    ∀ {j : Json}, (∀ x ∈ j.reals, ReadsBack x) → ReadsAs (spaced s level j) j.draft
  | .null, _ => readsAs_letters (fun _ _ => rfl) (by simp [spaced])
  | .bool true, _ => readsAs_letters (fun _ _ => rfl) (by simp [spaced])
  | .bool false, _ => readsAs_letters (fun _ _ => rfl) (by simp [spaced])
  | .int n, _ => readsAs_of_isWhole (isWhole_intChars n)
  | .real x, h => readsAs_of_isWhole (h x (by simp [reals])).number.1
  | .string t, _ => by
    refine readsAs_letters (fun fuel rest => ?_) (by simp [spaced, quoted])
    rw [spaced, quoted, value, List.cons_append, List.cons_append, dropBlanks_cons (by decide)]
    simp [stringPart_escape, ofString, draft]
  | .array [], _ => readsAs_letters (fun _ _ => rfl) (by simp [spaced])
  | .array (item :: items), h => by
    have hitem : ∀ x ∈ item.reals, ReadsBack x := fun x hx => h x (by simp [reals, itemReals, hx])
    have hitems : ∀ x ∈ itemReals items, ReadsBack x := fun x hx => h x (by simp [reals, itemReals, hx])
    intro fuel rest hfuel _
    simp only [spaced, List.length_cons, List.length_append, List.length_nil, List.cons_append] at hfuel
    obtain ⟨fuel, rfl⟩ : ∃ n, fuel = n + 1 := ⟨fuel - 1, by omega⟩
    have hread := items_spaced s level hitems (readsAs_spaced s (level + 1) hitem) fuel rest (by omega)
    obtain ⟨c, cs, heq, hc⟩ := spaced_start s (level + 1) hitem
    rw [heq] at hread
    have hvalue := value_array (s.line_blank (level + 1)) hc hread
    simpa [spaced, heq, draft, drafts] using hvalue
  | .object [], _ => readsAs_letters (fun _ _ => rfl) (by simp [spaced])
  | .object (⟨name, value⟩ :: members), h => by
    have hmember : ∀ x ∈ value.reals, ReadsBack x := fun x hx => h x (by simp [reals, memberReals, hx])
    have hmembers : ∀ x ∈ memberReals members, ReadsBack x := fun x hx => h x (by simp [reals, memberReals, hx])
    intro fuel rest hfuel _
    simp only [spaced, List.length_cons, List.length_append, List.length_nil, List.cons_append] at hfuel
    obtain ⟨fuel, rfl⟩ : ∃ n, fuel = n + 1 := ⟨fuel - 1, by omega⟩
    have hread := members_spaced s level hmembers name (readsAs_spaced s (level + 1) hmember) fuel rest (by omega)
    have hvalue := value_object (s.line_blank (level + 1)) hread
    simpa [spaced, quoted, draft, memberDrafts] using hvalue

/-- The elements of an array, from the first one on, whose text is given. -/
theorem items_spaced (s : Spacing) (level : Nat) :
    ∀ {items : List Json}, (∀ x ∈ itemReals items, ReadsBack x) → ∀ {text d}, ReadsAs text d → ∀ fuel rest,
      2 * (text.length + (spacedItems s (level + 1) items).length) + 1 ≤ fuel →
      Draft.items fuel (text ++ (spacedItems s (level + 1) items ++ (s.line level ++ ']' :: rest))) =
        (d :: drafts items, none, some rest)
  | [], _, text, d, htext, fuel, rest, hfuel => by
    obtain ⟨fuel, rfl⟩ : ∃ n, fuel = n + 1 := ⟨fuel - 1, by omega⟩
    exact items_nil s level htext fuel rest (by omega)
  | item :: items, h, text, d, htext, fuel, rest, hfuel => by
    have hitem : ∀ x ∈ item.reals, ReadsBack x := fun x hx => h x (by simp [itemReals, hx])
    have hitems : ∀ x ∈ itemReals items, ReadsBack x := fun x hx => h x (by simp [itemReals, hx])
    simp only [spacedItems, List.length_cons, List.length_append] at hfuel
    obtain ⟨fuel, rfl⟩ : ∃ n, fuel = n + 1 := ⟨fuel - 1, by omega⟩
    have hread := items_spaced s level hitems (readsAs_spaced s (level + 1) hitem) fuel rest (by omega)
    simpa [spacedItems, drafts] using items_cons s (level + 1) htext fuel _ (by omega) hread

/-- The members of an object, from the first one on, whose name and text are given. -/
theorem members_spaced (s : Spacing) (level : Nat) :
    ∀ {members : List (String × Json)}, (∀ x ∈ memberReals members, ReadsBack x) → ∀ (name : String) {text d},
      ReadsAs text d → ∀ fuel rest,
      2 * ((quoted name).length + text.length + (spacedMembers s (level + 1) members).length) + 1 ≤ fuel →
      Draft.members fuel (quoted name ++ ':' :: (s.colon ++ (text ++ (spacedMembers s (level + 1) members ++
        (s.line level ++ '}' :: rest))))) = ((.ok name, d) :: memberDrafts members, none, some rest)
  | [], _, name, text, d, htext, fuel, rest, hfuel => by
    obtain ⟨fuel, rfl⟩ : ∃ n, fuel = n + 1 := ⟨fuel - 1, by omega⟩
    exact members_nil s level htext name fuel rest (by omega)
  | ⟨next, value⟩ :: members, h, name, text, d, htext, fuel, rest, hfuel => by
    have hmember : ∀ x ∈ value.reals, ReadsBack x := fun x hx => h x (by simp [memberReals, hx])
    have hmembers : ∀ x ∈ memberReals members, ReadsBack x := fun x hx => h x (by simp [memberReals, hx])
    simp only [spacedMembers, List.length_cons, List.length_append] at hfuel
    obtain ⟨fuel, rfl⟩ : ∃ n, fuel = n + 1 := ⟨fuel - 1, by omega⟩
    have hread := members_spaced s level hmembers next (readsAs_spaced s (level + 1) hmember) fuel rest (by omega)
    simpa [spacedMembers, memberDrafts] using members_cons s (level + 1) htext name fuel _ (by omega) hread

end

/-- The text of a value is read to its end. -/
theorem ofText_spaced (s : Spacing) (level : Nat) {j : Json} (hreads : ∀ x ∈ j.reals, ReadsBack x) :
    ofText (String.ofList (spaced s level j)) = (j.draft, true) := by
  have h := readsAs_spaced s level hreads (2 * (spaced s level j).length + 2) [] (by omega) apart_nil
  rw [List.append_nil] at h
  rw [ofText, String.toList_ofList]
  simp [h, dropBlanks]

theorem read_of_ofText {α : Type} {decode : Decoder α} {text : String} {d : Draft} {x : α}
    (htext : ofText text = (d, true)) (hdecode : decode .start d = .ok x) : read decode text = .ok x := by
  simp only [read, htext, bind, Except.bind, hdecode]
  rfl

end Json
end Dialogue
