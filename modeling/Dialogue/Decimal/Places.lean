import Dialogue.Decimal.Layout

/-! Numbers with a set count of decimal places: the exact value of the float is rounded once, a tie to the even
    neighbour. -/

namespace Dialogue
namespace Decimal
open Float.Model (UnpackedFloat)

/-- The whole number closest to `num / den`, of two equally close ones the even one. -/
def roundToEven (num den : Nat) : Nat :=
  let whole := num / den
  match compare (2 * (num % den)) den with
  | .lt => whole
  | .gt => whole + 1
  | .eq => whole + whole % 2

/-- `mantissa * 2 ^ exponent` in units of the last place. -/
def inPlaces (places mantissa : Nat) (exponent : Int) : Nat :=
  roundToEven (mantissa * Nat.pow 2 exponent.toNat * Nat.pow 10 places) (Nat.pow 2 (-exponent).toNat)

/-- A count of last places as text. -/
def pointed (places n : Nat) : List Char :=
  let digits := digitChars n
  let padded := List.replicate (places + 1 - digits.length) '0' ++ digits
  padded.take (padded.length - places) ++ '.' :: padded.drop (padded.length - places)

/-- The text of a float with `places` digits after the point. -/
def fixed (places : Nat) : UnpackedFloat → String
  | .notANumber => "NaN"
  | .infinity .positive => "inf"
  | .infinity .negative => "-inf"
  | .zero .positive => String.ofList (pointed places 0)
  | .zero .negative => String.ofList ('-' :: pointed places 0)
  | .finite .positive m e _ => String.ofList (pointed places (inPlaces places m e))
  | .finite .negative m e _ => String.ofList ('-' :: pointed places (inPlaces places m e))

end Decimal
end Dialogue
