import Dialogue.Seconds
import Dialogue.Table
import Dialogue.Json.Mismatch

/-! Reading values out of drafts. A value is read either straight from its text, where faults are met as they come,
    or after the draft around it has been checked as a whole (`Mode`). -/

namespace Dialogue
namespace Json

/-- How a value is read. -/
structure Mode where
  /-- How many levels of arrays and objects may still be entered. -/
  levels : Nat
  /-- Whether the value has been checked before it is read. -/
  checked : Bool
  deriving Repr, DecidableEq

/-- A text may nest this many arrays and objects. -/
def nestingLimit : Nat := 127

namespace Mode

/-- Reading a text from its start. -/
def start : Mode := ⟨nestingLimit, false⟩

/-- Inside an array or object. -/
def enter (m : Mode) : Except ReadError Mode :=
  match m.levels with
  | 0 => .error (.fault .malformed)
  | levels + 1 => .ok { m with levels }

end Mode

abbrev Decoder (α : Type) := Mode → Draft → Except ReadError α

/-- A fault of the text, as a reason why nothing is read. -/
def faulty {α : Type} : Except Fault α → Except ReadError α
  | .ok x => .ok x
  | .error fault => .error (.fault fault)

def found : Draft → Except ReadError Found
  | .null => .ok .null
  | .bool b => .ok (.bool b)
  | .number (.int n) => .ok (.int n)
  | .number (.real x) => .ok (.real x)
  | .string s => .ok (.string s)
  | .array _ _ => .ok .sequence
  | .object _ _ => .ok .map
  | .flawed flaw => .error (.fault flaw.read)

/-- A value of another kind than the expected one. -/
def wrongType {α : Type} (expected : String) (d : Draft) : Except ReadError α := do
  let found ← found d
  throw (.mismatch (.wrongType found expected))

namespace Decoder

def bool : Decoder Bool
  | _, .bool b => .ok b
  | _, d => wrongType "a boolean" d

def string : Decoder String
  | _, .string s => .ok s
  | _, d => wrongType "a string" d

def int32 : Decoder Int32
  | _, .number (.int n) =>
    if Int32.minValue.toInt ≤ n ∧ n ≤ Int32.maxValue.toInt then .ok (Int32.ofInt n)
    else throw (.mismatch (.outOfRange (.int n) "i32"))
  | _, d => wrongType "i32" d

/-- A count that fits 32 bits. -/
def count : Decoder Nat
  | _, .number (.int n) =>
    if 0 ≤ n ∧ n < UInt32.size then .ok n.toNat else throw (.mismatch (.outOfRange (.int n) "u32"))
  | _, d => wrongType "u32" d

def seconds : Decoder Seconds
  | _, .number (.int n) => .ok (Float32.ofInt n)
  | _, .number (.real x) => .ok (Seconds.nearest x)
  | _, d => wrongType "f32" d

/-- A value that may be absent, written as `null`. -/
def optional {α : Type} (decode : Decoder α) : Decoder (Option α)
  | _, .null => .ok none
  | m, d => some <$> decode m d

def list {α : Type} (decode : Decoder α) : Decoder (List α)
  | m, .array items tail => do
    let m ← m.enter
    let found ← items.mapM (decode m)
    faulty (Draft.close tail)
    return found
  | _, d => wrongType "a sequence" d

/-- Of several values for a name the last one counts. -/
def table {α : Type} (decode : Decoder α) : Decoder (Table α)
  | m, .object members tail => do
    let m ← m.enter
    let found ← members.mapM fun (name, value) => do
      let name ← faulty name
      let value ← decode m value
      return (name, value)
    faulty (Draft.close tail)
    return Table.ofList found
  | _, d => wrongType "a map" d

end Decoder

/-- Reads a whole text: nothing but blanks may follow the value. -/
def read {α : Type} (decode : Decoder α) (text : String) : Except ReadError α := do
  let (draft, whole) := Draft.ofText text
  let value ← decode .start draft
  if whole then return value else throw (.fault .malformed)

end Json
end Dialogue
