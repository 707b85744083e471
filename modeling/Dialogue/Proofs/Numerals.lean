import Dialogue.Json.Value
import Dialogue.Json.Decoder

/-! Where a number ends. A text of a number may be followed by anything that does not go on with it (`Apart`): what
    is read of the number stays as it is (`Local`), so a number that is read as a text of its own is read alike
    within a longer text. -/

namespace Dialogue
namespace Json
open Draft

variable {c : Char} {cs rest : List Char}

/-! ### Blanks -/

/-- What may stand between the parts of a text. -/
def IsBlank (c : Char) : Prop := c = ' ' ∨ c = '\t' ∨ c = '\n' ∨ c = '\r'

instance : DecidablePred IsBlank := fun _ => inferInstanceAs (Decidable (_ ∨ _))

theorem isBlank_iff : IsBlank c ↔ (c = ' ' || c = '\t' || c = '\n' || c = '\r') = true := by
  simp [IsBlank, or_assoc]

theorem dropBlanks_cons (h : ¬IsBlank c) (cs : List Char) : dropBlanks (c :: cs) = c :: cs := by
  rw [isBlank_iff] at h
  exact List.dropWhile_cons_of_neg h

theorem dropBlanks_blank (h : IsBlank c) (cs : List Char) : dropBlanks (c :: cs) = dropBlanks cs :=
  List.dropWhile_cons_of_pos (isBlank_iff.mp h)

theorem dropBlanks_gap {gap : List Char} (h : ∀ c ∈ gap, IsBlank c) (cs : List Char) :
    dropBlanks (gap ++ cs) = dropBlanks cs :=
  List.dropWhile_append_of_pos fun c hc => isBlank_iff.mp (h c hc)

theorem isBlank_of_dropBlanks : ∀ {cs : List Char}, dropBlanks cs = [] → ∀ c ∈ cs, IsBlank c
  | [], _ => by simp
  | c :: cs, h => by
    by_cases hc : IsBlank c
    · rw [dropBlanks_blank hc] at h
      exact List.forall_mem_cons.mpr ⟨hc, isBlank_of_dropBlanks h⟩
    · simp [dropBlanks_cons hc] at h

theorem not_isBlank_of_isDigit (h : c.isDigit = true) : ¬IsBlank c := by
  rintro (rfl | rfl | rfl | rfl) <;> exact absurd h (by decide)

/-! ### Parts of a number -/

/-- A text does not go on with a number that stands before it. -/
def Apart (rest : List Char) : Prop := ∀ c ∈ rest.head?, c.isDigit = false ∧ c ≠ '.' ∧ c ≠ 'e' ∧ c ≠ 'E'

theorem apart_nil : Apart [] := by simp [Apart]

/-- What a part of a text says does not depend on what comes after it. -/
def Local {α : Type} (part : List Char → Except Flaw (α × Rest)) : Prop :=
  ∀ ⦃cs x r⦄, part cs = .ok (x, r) → r <:+ cs ∧ ∀ rest, Apart rest → part (cs ++ rest) = .ok (x, r ++ rest)

theorem Local.map {α β : Type} {part : List Char → Except Flaw (α × Rest)} (h : Local part) (f : α → β) :
    Local fun cs => (part cs).map fun (x, r) => (f x, r) := by
  intro cs y r hy
  cases hpart : part cs with
  | error flaw => simp [hpart, Except.map] at hy
  | ok found =>
    obtain ⟨x, r'⟩ := found
    simp only [hpart, Except.map, Except.ok.injEq, Prod.mk.injEq] at hy
    obtain ⟨rfl, rfl⟩ := hy
    exact ⟨(h hpart).1, fun rest hrest => by simp [(h hpart).2 rest hrest, Except.map]⟩

theorem digits_of_apart (h : Apart rest) : digits rest = ([], rest) := by
  cases rest with
  | nil => rfl
  | cons c rest => simp [digits, digit?, (h c rfl).1]

theorem digits_local : ∀ cs : List Char,
    (digits cs).2 <:+ cs ∧ ∀ rest, Apart rest → digits (cs ++ rest) = ((digits cs).1, (digits cs).2 ++ rest)
  | [] => ⟨List.suffix_refl _, fun rest hrest => by simp [digits_of_apart hrest, digits]⟩
  | c :: cs => by
    obtain ⟨hsuffix, hrest⟩ := digits_local cs
    cases hc : digit? c with
    | none => simp [digits, hc]
    | some d =>
      refine ⟨?_, fun rest happart => ?_⟩
      · simpa [digits, hc] using hsuffix.trans (List.suffix_cons c cs)
      · simp [digits, hc, hrest rest happart]

theorem someDigits_ok {ds : List Nat} {r : List Char} :
    someDigits cs = .ok (ds, r) ↔ digits cs = (ds, r) ∧ ds ≠ [] := by
  unfold someDigits
  rcases digits cs with ⟨_ | ⟨d, ds'⟩, _ | ⟨c, r'⟩⟩ <;> simp <;> grind

theorem someDigits_local : Local someDigits := by
  intro cs ds r h
  obtain ⟨hdigits, hne⟩ := someDigits_ok.mp h
  obtain ⟨hsuffix, hrest⟩ := digits_local cs
  simp only [hdigits] at hsuffix hrest
  exact ⟨hsuffix, fun rest happart => someDigits_ok.mpr ⟨hrest rest happart, hne⟩⟩

/-- A zero stands before other digits. -/
def NeedlessZero (cs : List Char) : Prop := ∃ c rest, cs = '0' :: c :: rest ∧ c.isDigit = true

theorem wholePart_of_not_needlessZero (h : ¬NeedlessZero cs) : wholePart cs = someDigits cs := by
  unfold wholePart
  split
  case h_1 c rest =>
    have hc : c.isDigit = false := by simpa using fun hc => h ⟨c, rest, rfl, hc⟩
    simp [hc, someDigits, digits, digit?]
  case h_2 => rfl

theorem wholePart_of_needlessZero (h : NeedlessZero cs) : wholePart cs = .error .malformed := by
  obtain ⟨c, rest, rfl, hc⟩ := h
  simp [wholePart, hc]

theorem wholePart_local : Local wholePart := by
  intro cs ds r h
  have hzero : ¬NeedlessZero cs := fun hzero => by simp [wholePart_of_needlessZero hzero] at h
  rw [wholePart_of_not_needlessZero hzero] at h
  refine ⟨(someDigits_local h).1, fun rest happart => ?_⟩
  rw [wholePart_of_not_needlessZero ?_, (someDigits_local h).2 rest happart]
  rintro ⟨c, rest', heq, hc⟩
  -- the second digit stands before the end of `cs` or after it
  match cs with
  | [] => simp [someDigits, digits] at h
  | [_] =>
    obtain ⟨-, rfl⟩ : _ ∧ rest = c :: rest' := by simpa using heq
    simp [(happart c rfl).1] at hc
  | a :: b :: cs =>
    obtain ⟨rfl, rfl, -⟩ : a = '0' ∧ b = c ∧ _ := by simpa using heq
    exact hzero ⟨b, cs, rfl, hc⟩

theorem fractionPart_none (h : ∀ c ∈ cs.head?, c ≠ '.') : fractionPart cs = .ok (none, cs) := by
  unfold fractionPart
  split <;> simp_all

theorem fractionPart_local : Local fractionPart := by
  intro cs x r h
  match cs with
  | [] =>
    obtain ⟨rfl, rfl⟩ : none = x ∧ [] = r := by simpa [fractionPart] using h
    exact ⟨List.suffix_refl _, fun rest happart => fractionPart_none fun c hc => (happart c hc).2.1⟩
  | c :: cs =>
    by_cases hpoint : c = '.'
    · subst hpoint
      exact (someDigits_local.map some h).imp_left fun hsuffix => hsuffix.trans (List.suffix_cons '.' cs)
    have hnone (cs : List Char) : fractionPart (c :: cs) = .ok (none, c :: cs) := fractionPart_none (by simpa)
    obtain ⟨rfl, rfl⟩ : none = x ∧ c :: cs = r := by simpa [hnone] using h
    exact ⟨List.suffix_refl _, fun rest _ => hnone (cs ++ rest)⟩

/-- An exponent after its letter. -/
def signedPart : List Char → Except Flaw (Option (Bool × List Nat) × Rest)
  | '-' :: cs => (someDigits cs).map fun (ds, rest) => (some (true, ds), rest)
  | '+' :: cs => (someDigits cs).map fun (ds, rest) => (some (false, ds), rest)
  | cs => (someDigits cs).map fun (ds, rest) => (some (false, ds), rest)

theorem signedPart_local : Local signedPart := by
  intro cs x r h
  have hlocal (negative : Bool) := someDigits_local.map fun ds => some (negative, ds)
  match cs with
  | [] => simp [signedPart, someDigits, digits, Except.map] at h
  | c :: cs =>
    by_cases hminus : c = '-'
    · subst hminus
      exact (hlocal true h).imp_left fun hsuffix => hsuffix.trans (List.suffix_cons '-' cs)
    by_cases hplus : c = '+'
    · subst hplus
      exact (hlocal false h).imp_left fun hsuffix => hsuffix.trans (List.suffix_cons '+' cs)
    have heq (cs : List Char) :
        signedPart (c :: cs) = (someDigits (c :: cs)).map fun (ds, rest) => (some (false, ds), rest) := by
      unfold signedPart
      split <;> simp_all
    rw [heq] at h
    exact (hlocal false h).imp_right fun hrest rest happart => by rw [List.cons_append, heq, ← hrest rest happart]; rfl

theorem exponentPart_none (h : ∀ c ∈ cs.head?, c ≠ 'e' ∧ c ≠ 'E') : exponentPart cs = .ok (none, cs) := by
  unfold exponentPart
  split <;> simp_all

theorem exponentPart_local : Local exponentPart := by
  intro cs x r h
  match cs with
  | [] =>
    obtain ⟨rfl, rfl⟩ : none = x ∧ [] = r := by simpa [exponentPart] using h
    exact ⟨List.suffix_refl _, fun rest happart => exponentPart_none fun c hc => (happart c hc).2.2⟩
  | c :: cs =>
    by_cases he : c = 'e'
    · subst he
      exact (signedPart_local h).imp_left fun hsuffix => hsuffix.trans (List.suffix_cons 'e' cs)
    by_cases hE : c = 'E'
    · subst hE
      exact (signedPart_local h).imp_left fun hsuffix => hsuffix.trans (List.suffix_cons 'E' cs)
    have hnone (cs : List Char) : exponentPart (c :: cs) = .ok (none, c :: cs) :=
      exponentPart_none (by simp [he, hE])
    obtain ⟨rfl, rfl⟩ : none = x ∧ c :: cs = r := by simpa [hnone] using h
    exact ⟨List.suffix_refl _, fun rest _ => hnone (cs ++ rest)⟩

theorem numeral_local (negative : Bool) : Local (numeral negative) := by
  intro cs n r h
  simp only [numeral, bind, Except.bind, pure, Except.pure] at h
  split at h
  · cases h
  case h_2 hwhole =>
  split at h
  · cases h
  case h_2 hfraction =>
  split at h
  · cases h
  case h_2 hexponent =>
  obtain ⟨rfl, rfl⟩ : _ = n ∧ _ = r := by simpa using h
  have hw := wholePart_local hwhole
  have hf := fractionPart_local hfraction
  have he := exponentPart_local hexponent
  refine ⟨he.1.trans (hf.1.trans hw.1), fun rest happart => ?_⟩
  simp only [numeral, hw.2 rest happart, hf.2 rest happart, he.2 rest happart, bind, Except.bind, pure, Except.pure]

/-! ### Numbers with their signs -/

/-- A number with its sign. -/
def signedNumeral : List Char → Except Flaw (Numeral × Rest)
  | '-' :: cs => numeral true cs
  | cs => numeral false cs

/-- A text that starts as a number does. -/
def IsNumeric (cs : List Char) : Prop := ∃ c ∈ cs.head?, c = '-' ∨ c.isDigit = true

theorem signedNumeral_of_ne (h : c ≠ '-') (cs : List Char) : signedNumeral (c :: cs) = numeral false (c :: cs) := by
  unfold signedNumeral
  split <;> simp_all

theorem signedNumeral_local {n : Numeral} {r : List Char} (hnumeric : IsNumeric cs)
    (h : signedNumeral cs = .ok (n, r)) :
    r <:+ cs ∧ ∀ rest, Apart rest → signedNumeral (cs ++ rest) = .ok (n, r ++ rest) := by
  match cs with
  | [] => simp [IsNumeric] at hnumeric
  | c :: cs =>
    by_cases hminus : c = '-'
    · subst hminus
      exact (numeral_local true h).imp_left fun hsuffix => hsuffix.trans (List.suffix_cons '-' cs)
    · rw [signedNumeral_of_ne hminus] at h
      refine (numeral_local false h).imp_right fun hrest rest happart => ?_
      rw [List.cons_append, signedNumeral_of_ne hminus]
      exact hrest rest happart

theorem value_of_isNumeric (h : IsNumeric cs) (fuel : Nat) : value (fuel + 1) cs = ofNumeral (signedNumeral cs) := by
  match cs with
  | [] => simp [IsNumeric] at h
  | c :: cs =>
    obtain rfl | hdigit : c = '-' ∨ c.isDigit = true := by simpa [IsNumeric] using h
    · rfl
    · have hne (c' : Char) (h' : c'.isDigit = false) : c ≠ c' := fun heq => by simp [heq, h'] at hdigit
      rw [signedNumeral_of_ne (hne '-' rfl), value, dropBlanks_cons (not_isBlank_of_isDigit hdigit)]
      have hn := hne 'n' rfl
      have ht := hne 't' rfl
      have hf := hne 'f' rfl
      have hquote := hne '"' rfl
      have hminus := hne '-' rfl
      have hbracket := hne '[' rfl
      have hbrace := hne '{' rfl
      split <;> simp_all

/-- What is read of a text that is a number. -/
def numberDraft (cs : List Char) : Draft := (ofNumeral (signedNumeral cs)).1

/-- A text that is a number, to its end. -/
def IsWhole (cs : List Char) : Prop := IsNumeric cs ∧ ∃ n, signedNumeral cs = .ok (n, [])

/-- A number is read alike whatever comes after it. -/
theorem value_of_isWhole (h : IsWhole cs) (happart : Apart rest) (fuel : Nat) :
    value (fuel + 1) (cs ++ rest) = (numberDraft cs, some rest) := by
  obtain ⟨hnumeric, n, hn⟩ := h
  have hnumeric' : IsNumeric (cs ++ rest) := by
    obtain ⟨c, hc, h⟩ := hnumeric
    exact ⟨c, by simp_all [List.head?_append], h⟩
  rw [value_of_isNumeric hnumeric', (signedNumeral_local hnumeric hn).2 rest happart, numberDraft, hn]
  simp only [ofNumeral, List.nil_append]
  split <;> rfl

/-! ### Whole numbers -/

/-- The digits that characters stand for. -/
def digitValues (cs : List Char) : List Nat := cs.map (·.toNat - 48)

theorem digits_eq : ∀ {cs : List Char}, (∀ c ∈ cs, c.isDigit = true) → digits cs = (digitValues cs, [])
  | [], _ => rfl
  | c :: cs, h => by
    have hc : c.isDigit = true := h c List.mem_cons_self
    have ih := digits_eq fun c hc => h c (List.mem_cons_of_mem _ hc)
    simp [digits, digit?, hc, ih, digitValues]

theorem isDigit_of_mem_digitChars {n : Nat} (h : c ∈ Decimal.digitChars n) : c.isDigit = true :=
  Nat.isDigit_of_mem_toDigits (by decide) (by decide) h

theorem digitChars_ne_nil (n : Nat) : Decimal.digitChars n ≠ [] := Nat.toDigits_ne_nil

theorem head?_digitChars_ne_zero : ∀ n : Nat, 0 < n → (Decimal.digitChars n).head? ≠ some '0'
  | n, h => by
    by_cases hlt : n < 10
    · have hall : ∀ n < 10, 0 < n → (Decimal.digitChars n).head? ≠ some '0' := by decide
      exact hall n hlt h
    · have ih := head?_digitChars_ne_zero (n / 10) (by omega)
      obtain ⟨c, cs, heq⟩ := List.exists_cons_of_ne_nil (digitChars_ne_nil (n / 10))
      rw [Decimal.digitChars, Nat.toDigits_eq_if (by decide), if_neg hlt, ← Decimal.digitChars]
      simpa [heq] using ih
termination_by n => n

theorem not_needlessZero_digitChars (n : Nat) : ¬NeedlessZero (Decimal.digitChars n) := by
  rintro ⟨c, rest, heq, -⟩
  match n with
  | 0 => cases heq
  | n + 1 => exact head?_digitChars_ne_zero (n + 1) n.succ_pos (by rw [heq]; rfl)

/-- A whole number as it is written. -/
def Numeral.ofInt (n : Int) : Numeral where
  negative := n < 0
  whole := digitValues (Decimal.digitChars n.natAbs)
  fraction := none
  exponent := none

theorem numeral_digitChars (negative : Bool) (n : Nat) :
    numeral negative (Decimal.digitChars n) =
      .ok ({ negative, whole := digitValues (Decimal.digitChars n), fraction := none, exponent := none }, []) := by
  have hdigits : someDigits (Decimal.digitChars n) = .ok (digitValues (Decimal.digitChars n), []) :=
    someDigits_ok.mpr ⟨digits_eq fun c => isDigit_of_mem_digitChars, by simp [digitValues, digitChars_ne_nil]⟩
  rw [numeral, wholePart_of_not_needlessZero (not_needlessZero_digitChars n), hdigits]
  rfl

theorem signedNumeral_intChars (n : Int) : signedNumeral (intChars n) = .ok (.ofInt n, []) := by
  unfold intChars
  split
  case isTrue hneg => simp [signedNumeral, numeral_digitChars, Numeral.ofInt, hneg]
  case isFalse hpos =>
    obtain ⟨c, cs, heq⟩ := List.exists_cons_of_ne_nil (digitChars_ne_nil n.natAbs)
    have hdigit : c.isDigit = true := isDigit_of_mem_digitChars (n := n.natAbs) (by simp [heq])
    have hne : c ≠ '-' := fun h => by simp [h] at hdigit
    rw [heq, signedNumeral_of_ne hne, ← heq, numeral_digitChars]
    simp [Numeral.ofInt, hpos]

theorem isWhole_intChars (n : Int) : IsWhole (intChars n) := by
  refine ⟨?_, _, signedNumeral_intChars n⟩
  unfold intChars
  split
  · exact ⟨'-', rfl, .inl rfl⟩
  · obtain ⟨c, cs, heq⟩ := List.exists_cons_of_ne_nil (digitChars_ne_nil n.natAbs)
    exact ⟨c, by simp [heq], .inr (isDigit_of_mem_digitChars (n := n.natAbs) (by simp [heq]))⟩

theorem takeWhole_eq : ∀ (ds : List Nat) (n : Nat), ds.foldl (fun n d => n * 10 + d) n < Numeral.bound →
    Numeral.takeWhole n ds = (ds.foldl (fun n d => n * 10 + d) n, 0)
  | [], _, _ => rfl
  | d :: ds, n, h => by
    have hgrows : ∀ (ds : List Nat) (n : Nat), n ≤ ds.foldl (fun n d => n * 10 + d) n := by
      intro ds
      induction ds with
      | nil => simp
      | cons d ds ih => exact fun n => Nat.le_trans (by omega) (ih (n * 10 + d))
    have hfits : n * 10 + d < Numeral.bound := Nat.lt_of_le_of_lt (hgrows ds _) h
    rw [Numeral.takeWhole, if_pos hfits, takeWhole_eq ds _ h, List.foldl_cons]

theorem foldl_digitValues (n : Nat) : (digitValues (Decimal.digitChars n)).foldl (fun n d => n * 10 + d) 0 = n := by
  rw [digitValues, List.foldl_map, Decimal.digitChars]
  simpa [Nat.ofDigitChars_eq_foldl, Nat.mul_comm] using Nat.ofDigitChars_ten_toDigits (n := n)

theorem Numeral.value?_ofInt {n : Int} (h : n.natAbs ≤ Numeral.bound / 2) :
    (Numeral.ofInt n).value? = some (.int n) := by
  have hfits : n.natAbs < Numeral.bound := Nat.lt_of_le_of_lt h (by decide)
  have htake := takeWhole_eq (digitValues (Decimal.digitChars n.natAbs)) 0 (by rwa [foldl_digitValues])
  rw [foldl_digitValues] at htake
  simp only [Numeral.value?, Numeral.ofInt, htake]
  by_cases hneg : n < 0
  · have hpos : 0 < n.natAbs := by omega
    have hint : -(n.natAbs : Int) = n := by omega
    simp only [hneg, decide_true, Bool.not_true, hpos, h, and_self, if_true, hint, Bool.false_eq_true, if_false]
  · have hint : (n.natAbs : Int) = n := by omega
    simp only [hneg, decide_false, Bool.not_false, if_true, hint]

/-- A whole number that fits 64 bits is read as it is. -/
theorem numberDraft_intChars {n : Int} (h : n.natAbs ≤ Numeral.bound / 2) :
    numberDraft (intChars n) = .number (.int n) := by
  simp [numberDraft, signedNumeral_intChars, ofNumeral, Numeral.value?_ofInt h]

/-! ### Reals -/

/-- A text without blanks. -/
def Unbroken (cs : List Char) : Prop := ∀ c ∈ cs, ¬IsBlank c

theorem unbroken_cons : Unbroken (c :: cs) ↔ ¬IsBlank c ∧ Unbroken cs := List.forall_mem_cons

theorem unbroken_append {cs' : List Char} : Unbroken (cs ++ cs') ↔ Unbroken cs ∧ Unbroken cs' :=
  List.forall_mem_append

theorem unbroken_replicate (n : Nat) : Unbroken (List.replicate n '0') := fun c hc => by
  rw [(List.mem_replicate.mp hc).2]
  decide

theorem unbroken_digitChars (n : Nat) : Unbroken (Decimal.digitChars n) := fun _ hc =>
  not_isBlank_of_isDigit (isDigit_of_mem_digitChars hc)

theorem Unbroken.take (h : Unbroken cs) (n : Nat) : Unbroken (cs.take n) := fun c hc => h c (List.mem_of_mem_take hc)

theorem Unbroken.drop (h : Unbroken cs) (n : Nat) : Unbroken (cs.drop n) := fun c hc => h c (List.mem_of_mem_drop hc)

theorem Unbroken.positionally (h : Unbroken cs) (l : Decimal.Layout) (exponent : Int) :
    Unbroken (l.positionally cs exponent) := by
  unfold Decimal.Layout.positionally
  split
  · have hpoint : Unbroken (if l.pointZero then ['.', '0'] else []) := by
      cases l.pointZero <;> simp [Unbroken, IsBlank]
    exact unbroken_append.mpr ⟨unbroken_append.mpr ⟨h, unbroken_replicate _⟩, hpoint⟩
  · have hpadded (places : Nat) : Unbroken (List.replicate places '0' ++ cs) :=
      unbroken_append.mpr ⟨unbroken_replicate _, h⟩
    exact unbroken_append.mpr ⟨(hpadded _).take _, unbroken_cons.mpr ⟨by decide, (hpadded _).drop _⟩⟩

theorem Unbroken.scientifically (h : Unbroken cs) (leading : Int) :
    Unbroken (Decimal.Layout.scientifically cs leading) := by
  have hfraction : Unbroken (if cs.length ≤ 1 then [] else '.' :: cs.drop 1) := by
    split
    · simp [Unbroken]
    · exact unbroken_cons.mpr ⟨by decide, h.drop 1⟩
  have hsign : ¬IsBlank (if leading < 0 then '-' else '+') := by
    split <;> decide
  exact unbroken_append.mpr ⟨unbroken_append.mpr ⟨h.take 1, hfraction⟩,
    unbroken_cons.mpr ⟨by decide, unbroken_cons.mpr ⟨hsign, unbroken_digitChars _⟩⟩⟩

theorem unbroken_write (l : Decimal.Layout) (d : Decimal) : Unbroken (l.write d) := by
  unfold Decimal.Layout.write
  split
  · exact (unbroken_digitChars _).positionally _ _
  · split
    · exact (unbroken_digitChars _).positionally _ _
    · exact (unbroken_digitChars _).scientifically _

theorem unbroken_real (l : Decimal.Layout) (format : Float.Model.Format) (x : Float.Model.UnpackedFloat) :
    Unbroken (l.real format x).toList := by
  have hplain (d : Decimal) : Unbroken (String.ofList (l.write d)).toList := by
    rw [String.toList_ofList]
    exact unbroken_write l d
  have hminus (d : Decimal) : Unbroken (String.ofList ('-' :: l.write d)).toList := by
    rw [String.toList_ofList]
    exact unbroken_cons.mpr ⟨by decide, unbroken_write l d⟩
  match x with
  | .notANumber =>
    show Unbroken "NaN".toList
    simp [Unbroken, IsBlank]
  | .infinity .positive =>
    show Unbroken "inf".toList
    simp [Unbroken, IsBlank]
  | .infinity .negative =>
    show Unbroken "-inf".toList
    simp [Unbroken, IsBlank]
  | .zero .positive => exact hplain _
  | .zero .negative => exact hminus _
  | .finite .positive .. => exact hplain _
  | .finite .negative .. => exact hminus _

theorem unbroken_realChars (x : Float32) : Unbroken (realChars x) := by
  unfold realChars
  split
  · exact unbroken_real _ _ _
  · simp [Unbroken, IsBlank]

/-- A time is read back from its text. -/
def ReadsBack (x : Seconds) : Prop := read Decoder.seconds (Json.real x).text = .ok x

theorem ofLetters_number {d : Draft} {found : Except Fault Rest} {v : Number} {r : Option Rest}
    (h : ofLetters d found = (.number v, r)) : d = .number v := by
  cases found <;> simp_all [ofLetters]

theorem ofString_ne_number (found : Except Fault String × Except Fault Rest) (v : Number) (r : Option Rest) :
    ofString found ≠ (.number v, r) := by
  rcases found with ⟨_ | _, _ | _⟩ <;> simp [ofString]

theorem isNumeric_of_value {fuel : Nat} {v : Number} {r : Option Rest} (hblank : Unbroken cs)
    (h : value (fuel + 1) cs = (.number v, r)) : IsNumeric cs := by
  match cs with
  | [] => simp [value, dropBlanks] at h
  | c :: cs =>
    rw [value, dropBlanks_cons (hblank c List.mem_cons_self)] at h
    split at h
    case h_1 => cases h
    case h_2 => exact nomatch ofLetters_number h
    case h_3 => exact nomatch ofLetters_number h
    case h_4 => exact nomatch ofLetters_number h
    case h_5 => exact absurd h (ofString_ne_number _ _ _)
    case h_6 heq => exact ⟨c, rfl, .inl (List.cons.inj heq).1⟩
    case h_7 => split at h <;> cases h
    case h_8 => split at h <;> cases h
    case h_9 c' rest _ _ _ _ _ _ _ heq =>
      split at h
      case isTrue hdigit => exact ⟨c, rfl, .inr ((List.cons.inj heq).1 ▸ hdigit)⟩
      case isFalse => cases h

theorem number_of_seconds {m : Mode} {d : Draft} {x : Seconds} (h : Decoder.seconds m d = .ok x) :
    ∃ v, d = .number v := by
  cases d with
  | number v => exact ⟨v, rfl⟩
  | null | bool | string | array | object | flawed => cases h

theorem read_ok {α : Type} {decode : Decoder α} {text : String} {x : α} (h : read decode text = .ok x) :
    decode .start (ofText text).1 = .ok x ∧ (ofText text).2 = true := by
  simp only [read, bind, Except.bind, pure, Except.pure] at h
  split at h
  · cases h
  · split at h
    · simp_all
    · cases h

/-- A time that is read back from its text is written as a number, to its end. -/
theorem ReadsBack.number {x : Seconds} (h : ReadsBack x) :
    IsWhole (realChars x) ∧ ∃ v, numberDraft (realChars x) = .number v ∧
      ∀ m, Decoder.seconds m (.number v) = .ok x := by
  obtain ⟨hdecode, hend⟩ := read_ok h
  obtain ⟨v, hv⟩ := number_of_seconds hdecode
  rw [hv] at hdecode
  rw [ofText, Json.text, chars, String.toList_ofList] at hv hend
  obtain ⟨r, hvalue⟩ : ∃ r, value (2 * (realChars x).length + 2) (realChars x) = (.number v, r) := by
    generalize value (2 * (realChars x).length + 2) (realChars x) = found at hv
    obtain ⟨d, _ | rest⟩ := found <;> simp_all
  have hnumeric := isNumeric_of_value (unbroken_realChars x) hvalue
  rw [hvalue] at hend
  rw [value_of_isNumeric hnumeric] at hvalue
  cases hn : signedNumeral (realChars x) with
  | error flaw => simp [hn, ofNumeral] at hvalue
  | ok found =>
    obtain ⟨n, rest⟩ := found
    have hr : r = some rest := by
      simp only [hn, ofNumeral] at hvalue
      split at hvalue <;> simp_all
    -- what is left of the text is blank, and the text has no blanks
    have hnil : rest = [] := by
      cases rest with
      | nil => rfl
      | cons c rest =>
        have hmem : c ∈ realChars x := (signedNumeral_local hnumeric hn).1.subset List.mem_cons_self
        have hblank := isBlank_of_dropBlanks (by simpa [hr] using hend) c List.mem_cons_self
        exact absurd hblank (unbroken_realChars x c hmem)
    subst hnil
    exact ⟨⟨hnumeric, n, hn⟩, v, by rw [numberDraft, hvalue], fun _ => by cases v <;> exact hdecode⟩

end Json
end Dialogue
