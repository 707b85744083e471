/-! Decimal numbers and their text. A `Layout` holds the decisions of a number format: which numbers are written
    positionally, whether a whole number keeps its point, and which way a tie between two equally close decimals
    goes. -/

namespace Dialogue

/-- The number `digits * 10 ^ exponent`. -/
structure Decimal where
  digits : Nat
  exponent : Int
  deriving Repr, DecidableEq

namespace Decimal

/-- Which of two equally close neighbours is taken. -/
inductive Tie where
  | toEven
  | upward
  deriving Repr, DecidableEq

/-- The decisions of a number format. -/
structure Layout where
  /-- The least and greatest exponent of the leading digit that are written positionally; all, if absent. -/
  positional : Option (Int × Int)
  /-- Whether a whole number is written with `.0`. -/
  pointZero : Bool
  tie : Tie
  deriving Repr, DecidableEq

/-- The decimal digits of a number, the leading one first. -/
def digitChars (n : Nat) : List Char := Nat.toDigits 10 n

/-- The exponent of the leading digit. -/
def leading (d : Decimal) : Int := (digitChars d.digits).length + d.exponent - 1

namespace Layout

/-- The digits with the point where the exponent puts it. -/
def positionally (l : Layout) (digits : List Char) (exponent : Int) : List Char :=
  if 0 ≤ exponent then
    digits ++ List.replicate exponent.toNat '0' ++ (if l.pointZero then ['.', '0'] else [])
  else
    let places := (-exponent).toNat
    let padded := List.replicate (places + 1 - digits.length) '0' ++ digits
    padded.take (padded.length - places) ++ '.' :: padded.drop (padded.length - places)

/-- One digit before the point, and the exponent of that digit with its sign. -/
def scientifically (digits : List Char) (leading : Int) : List Char :=
  let fraction := if digits.length ≤ 1 then [] else '.' :: digits.drop 1
  let sign := if leading < 0 then '-' else '+'
  digits.take 1 ++ fraction ++ 'e' :: sign :: digitChars leading.natAbs

def write (l : Layout) (d : Decimal) : List Char :=
  let digits := digitChars d.digits
  match l.positional with
  | none => l.positionally digits d.exponent
  | some (least, greatest) =>
    if least ≤ d.leading ∧ d.leading ≤ greatest then l.positionally digits d.exponent
    else scientifically digits d.leading

end Layout
end Decimal
end Dialogue
