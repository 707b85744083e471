import Dialogue.Json.Record

/-! Values of several variants. A tagged value names its variant in the member `type` of an object or in the first
    element of an array; the rest of it is checked before the fields of the variant are read. -/

namespace Dialogue
namespace Json

/-- A variant by its name, with the fields that it reads. -/
structure Variant (α : Type) where
  name : String
  ofMembers : Mode → List (String × Draft) → Except ReadError α
  ofItems : Mode → List Draft → Except ReadError α

namespace Variant
variable {σ α β : Type}

/-- A variant with the fields of a record; `what` is its name in messages. -/
def record (name what : String) (r : Record σ α) : Variant α where
  name
  ofMembers m members := r.ofMembers m (members.map fun (name, value) => (.ok name, value)) none
  ofItems m items := r.ofItems what m items none

/-- A variant that is only written with the names of its fields. -/
def keyed (name : String) (r : Record σ α) : Variant α where
  name
  ofMembers m members := r.ofMembers m (members.map fun (name, value) => (.ok name, value)) none
  ofItems _ _ := .error (.fault .malformed)

/-- A variant that reads no field. -/
def plain (name : String) (value : α) : Variant α where
  name
  ofMembers _ _ := .ok value
  ofItems _ _ := .ok value

/-- The variant of a name. -/
def named (variants : List (Variant α)) (name : String) : Except ReadError (Variant α) :=
  match variants.find? fun v => v.name == name with
  | some v => .ok v
  | none => throw (.mismatch (.unknownVariant name (variants.map (·.name))))

/-- The variant that a tag names. A tag that has been checked may also be the variant's number. -/
def ofTag (variants : List (Variant α)) : Decoder (Variant α)
  | _, .string name => named variants name
  | ⟨_, true⟩, .number (.int (.ofNat n)) =>
    match variants[n]? with
    | some v => .ok v
    | none => throw (.mismatch (.outOfRange (.int n) ("variant index 0 <= i < " ++ toString variants.length)))
  | _, d => wrongType "variant identifier" d

/-- The name of the member that holds the tag. -/
def tag : String := "type"

/-- Takes the tag out of the members of an object; the other members are checked. -/
def splitTag (variants : List (Variant α)) (m : Mode) :
    Record.Members → Option (Variant α) → Except ReadError (Option (Variant α) × List (String × Draft))
  | [], v => .ok (v, [])
  | (name, value) :: members, v => do
    let name ← faulty name
    if name == tag then
      if v.isSome then throw (.mismatch (.duplicateField tag))
      let v ← ofTag variants m value
      splitTag variants m members (some v)
    else
      faulty (value.check m.levels)
      let (v, others) ← splitTag variants m members v
      return (v, (name, value) :: others)

/-- The tagged value in the members of an object. -/
def ofObject (variants : List (Variant α)) (m : Mode) (members : Record.Members) (tail : Option Flaw) :
    Except ReadError α := do
  let (v, others) ← splitTag variants m members none
  faulty (Draft.close tail)
  match v with
  | some v => v.ofMembers { m with checked := true } others
  | none => throw (.mismatch (.missingField tag))

/-- The tagged value in the elements of an array. -/
def ofArray (variants : List (Variant α)) (m : Mode) (items : List Draft) (tail : Option Flaw) :
    Except ReadError α :=
  match items with
  | [] => do
    faulty (Draft.close tail)
    throw (.mismatch (.missingField tag))
  | first :: items => do
    let v ← ofTag variants m first
    faulty (Draft.checkItems m.levels items)
    faulty (Draft.close tail)
    v.ofItems { m with checked := true } items

/-- Reads a tagged value; `what` is its type in messages. -/
def decode (what : String) (variants : List (Variant α)) : Decoder α
  | m, .object members tail => do
    let m ← m.enter
    ofObject variants m members tail
  | m, .array items tail => do
    let m ← m.enter
    ofArray variants m items tail
  | _, d => wrongType what d

end Variant

/-- Reads one of several named values that have been checked: the name alone, or as the only name in an object,
    with nothing under it. -/
def Decoder.oneOf {α : Type} (values : List (String × α)) : Decoder α :=
  let named (name : String) : Except ReadError α :=
    match values.lookup name with
    | some x => .ok x
    | none => throw (.mismatch (.unknownVariant name (values.map (·.1))))
  fun
  | _, .string name => named name
  | _, .object [(name, value)] _ => do
    let x ← named (← faulty name)
    match value with
    | .null | .object [] _ => return x
    | d => wrongType "unit" d
  | _, .object _ _ => throw (.mismatch (.outOfRange .map "map with a single key"))
  | _, d => wrongType "string or map" d

end Json
end Dialogue
