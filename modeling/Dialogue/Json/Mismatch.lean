import Dialogue.Decimal.Shortest
import Dialogue.Json.Draft
import Dialogue.Text.Quoted

/-! Why a text does not hold the value that is read from it: it is faulty, or the value in it has another shape. -/

namespace Dialogue
namespace Json

/-- Numbers in messages are written positionally from a hundred-thousandth up to a thousand million millions. -/
def doubleLayout : Decimal.Layout where
  positional := some (-5, 15)
  pointZero := true
  tie := .toEven

/-- What stands in a text where something else is expected. -/
inductive Found where
  | null
  | bool (value : Bool)
  | int (value : Int)
  | real (value : Float)
  | string (value : String)
  | sequence
  | map
  deriving Repr

/-- How a value differs from the shape that is expected. -/
inductive Mismatch where
  | wrongType (found : Found) (expected : String)
  | outOfRange (found : Found) (expected : String)
  | wrongLength (length : Nat) (expected : String)
  | missingField (name : String)
  | duplicateField (name : String)
  | unknownVariant (name : String) (known : List String)
  deriving Repr

/-- Why a value cannot be read from a text. -/
inductive ReadError where
  | fault (fault : Fault)
  | mismatch (mismatch : Mismatch)
  deriving Repr

/-! ### Messages -/

def Found.describe : Found → String
  | .null => "null"
  | .bool true => "boolean `true`"
  | .bool false => "boolean `false`"
  | .int n => "integer `" ++ toString n ++ "`"
  | .real x => "floating point `" ++ doubleLayout.double x ++ "`"
  | .string s => "string " ++ Text.quoted s
  | .sequence => "sequence"
  | .map => "map"

/-- Names to choose from. -/
def oneOf (names : List String) : String :=
  match names.map fun name => "`" ++ name ++ "`" with
  | [name] => name
  | [first, second] => first ++ " or " ++ second
  | quoted => "one of " ++ ", ".intercalate quoted

def Mismatch.message : Mismatch → String
  | .wrongType found expected => "invalid type: " ++ found.describe ++ ", expected " ++ expected
  | .outOfRange found expected => "invalid value: " ++ found.describe ++ ", expected " ++ expected
  | .wrongLength length expected => "invalid length " ++ toString length ++ ", expected " ++ expected
  | .missingField name => "missing field `" ++ name ++ "`"
  | .duplicateField name => "duplicate field `" ++ name ++ "`"
  | .unknownVariant name known => "unknown variant `" ++ name ++ "`, expected " ++ oneOf known

def Fault.message : Fault → String
  | .endOfText => "the text ends too early"
  | .malformed => "the text is not JSON"

def ReadError.message : ReadError → String
  | .fault f => f.message
  | .mismatch m => m.message

end Json
end Dialogue
