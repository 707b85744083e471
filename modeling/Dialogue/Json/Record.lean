import Dialogue.Json.Decoder

/-! Records: values with named fields. A record is written as an object, its fields in any order, or as an array of
    its fields in the order they are declared. What is read of a record so far is held in `σ`, so that the first
    fault in the order of the text decides. -/

namespace Dialogue
namespace Json

/-- A place for the value of one field. -/
structure Slot (σ : Type) where
  name : String
  filled : σ → Bool
  fill : Mode → Draft → σ → Except ReadError σ

/-- The fields of a record in the order they are declared. -/
structure Record (σ α : Type) where
  /-- Nothing read yet. -/
  blank : σ
  slots : List (Slot σ)
  /-- The record, or the name of the first field that is needed and absent. -/
  complete : σ → Except String α

namespace Record
variable {σ τ α β : Type}

/-- A single field, and what stands for it where it is absent. -/
def field (name : String) (decode : Decoder α) (absent : Option α) : Record (Option α) α where
  blank := none
  slots := [{ name, filled := Option.isSome, fill := fun m d _ => some <$> decode m d }]
  complete
    | some x => .ok x
    | none =>
      match absent with
      | some x => .ok x
      | none => .error name

def required (name : String) (decode : Decoder α) : Record (Option α) α := field name decode none

def defaulting (name : String) (decode : Decoder α) (absent : α) : Record (Option α) α :=
  field name decode (some absent)

def optional (name : String) (decode : Decoder α) : Record (Option (Option α)) (Option α) :=
  defaulting name (Decoder.optional decode) none

/-- The fields of one record, then those of another. -/
def and (r : Record σ α) (s : Record τ β) : Record (σ × τ) (α × β) where
  blank := (r.blank, s.blank)
  slots :=
    r.slots.map (fun slot => {
      name := slot.name
      filled := fun x => slot.filled x.1
      fill := fun m d x => do return (← slot.fill m d x.1, x.2) }) ++
    s.slots.map (fun slot => {
      name := slot.name
      filled := fun x => slot.filled x.2
      fill := fun m d x => do return (x.1, ← slot.fill m d x.2) })
  complete x := do return (← r.complete x.1, ← s.complete x.2)

def map (f : α → β) (r : Record σ α) : Record σ β where
  blank := r.blank
  slots := r.slots
  complete x := f <$> r.complete x

/-! ### Members and elements -/

abbrev Members := List (Except Fault String × Draft)

/-- Reads members into their slots, in the order of the text. Those that are no field of the record are passed with
    `pass` and returned. -/
def fillByName (r : Record σ α) (pass : Draft → Except ReadError Unit) (m : Mode) :
    Members → σ → Except ReadError (σ × List (String × Draft))
  | [], x => .ok (x, [])
  | (name, value) :: members, x => do
    let name ← faulty name
    match r.slots.find? fun slot => slot.name == name with
    | some slot =>
      if slot.filled x then throw (.mismatch (.duplicateField name))
      let x ← slot.fill m value x
      r.fillByName pass m members x
    | none =>
      pass value
      let (x, others) ← r.fillByName pass m members x
      return (x, (name, value) :: others)

/-- Reads elements into the slots in order, and returns the elements that are left. -/
def fillInOrder (m : Mode) : List (Slot σ) → List Draft → σ → Except ReadError (σ × List Draft)
  | slot :: slots, item :: items, x => do
    let x ← slot.fill m item x
    fillInOrder m slots items x
  | _, items, x => .ok (x, items)

def completeNamed (r : Record σ α) (x : σ) : Except ReadError α :=
  match r.complete x with
  | .ok value => .ok value
  | .error name => .error (.mismatch (.missingField name))

/-- How messages count things. -/
def counted (n : Nat) (noun : String) : String := toString n ++ " " ++ noun ++ (if n = 1 then "" else "s")

/-- The record in a list of elements. Too many of them are a fault of a text that is read straight, and a wrong
    length after it has been checked. -/
def ofItems (r : Record σ α) (what : String) (m : Mode) (items : List Draft) (tail : Option Flaw) :
    Except ReadError α := do
  let (x, others) ← fillInOrder m r.slots items r.blank
  let tooMany : ReadError :=
    if m.checked then .mismatch (.wrongLength items.length (counted r.slots.length "element" ++ " in sequence"))
    else .fault .malformed
  if items.length < r.slots.length then faulty (Draft.close tail)
  match r.complete x with
  | .error name =>
    let place := r.slots.findIdx fun slot => slot.name == name
    throw (.mismatch (.wrongLength place (what ++ " with " ++ counted r.slots.length "element")))
  | .ok value =>
    if others.isEmpty then
      faulty (Draft.close tail)
      return value
    else throw tooMany

/-- The record in the members of an object whose other members only have to be well formed. -/
def ofMembers (r : Record σ α) (m : Mode) (members : Members) (tail : Option Flaw) : Except ReadError α := do
  let (x, _) ← r.fillByName (fun d => faulty d.skip) m members r.blank
  faulty (Draft.close tail)
  r.completeNamed x

def decode (r : Record σ α) (what : String) : Decoder α
  | m, .object members tail => do
    let m ← m.enter
    r.ofMembers m members tail
  | m, .array items tail => do
    let m ← m.enter
    r.ofItems what m items tail
  | _, d => wrongType what d

end Record
end Json
end Dialogue
