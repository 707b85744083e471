import Dialogue.Decimal.Layout

/-! The fewest decimal digits that identify a float. A float stands for all reals that round to it; of the decimals
    among them the ones on the coarsest grid `10 ^ k` are the shortest, and the closest of these is taken. All
    arithmetic is on whole numbers, in quarters of the float's last binary place. -/

namespace Dialogue
namespace Decimal
open Float.Model (Format UnpackedFloat)

/-- The reals that round to a float: those from `low` to `high` around `mid`, all in units of `2 ^ scale`. -/
structure Cell where
  low : Nat
  mid : Nat
  high : Nat
  scale : Int
  /-- Whether the two ends round to the float as well. -/
  closed : Bool
  deriving Repr

namespace Cell

/-- The cell of `mantissa * 2 ^ exponent`. Just above a power of two the float below is half as far away as the one
    above; a tie rounds to the even mantissa. -/
def of (format : Format) (mantissa : Nat) (exponent : Int) : Cell where
  low := if mantissa = Nat.pow 2 format.mantissaBitsWithoutImplicit ∧ format.minExponent < exponent
    then 4 * mantissa - 1 else 4 * mantissa - 2
  mid := 4 * mantissa
  high := 4 * mantissa + 2
  scale := exponent - 2
  closed := mantissa % 2 = 0

/-- A unit of the cell as a fraction of `10 ^ k`. -/
def unit (c : Cell) (k : Int) : Nat × Nat :=
  (Nat.pow 2 c.scale.toNat * Nat.pow 10 (-k).toNat, Nat.pow 2 (-c.scale).toNat * Nat.pow 10 k.toNat)

/-- Whether `n * 10 ^ k` rounds to the float. -/
def holds (c : Cell) (k : Int) (n : Nat) : Bool :=
  let (up, down) := c.unit k
  if c.closed then c.low * up ≤ n * down ∧ n * down ≤ c.high * up
  else c.low * up < n * down ∧ n * down < c.high * up

/-- The multiple of `10 ^ k` closest to the float, if it rounds to it. -/
def point? (c : Cell) (tie : Tie) (k : Int) : Option Nat :=
  let (up, down) := c.unit k
  let below := c.mid * up / down
  match c.holds k below, c.holds k (below + 1) with
  | true, true =>
    match compare (2 * (c.mid * up)) ((2 * below + 1) * down), tie with
    | .lt, _ => some below
    | .gt, _ => some (below + 1)
    | .eq, .upward => some (below + 1)
    | .eq, .toEven => some (if below % 2 = 0 then below else below + 1)
  | true, false => some below
  | false, true => some (below + 1)
  | false, false => none

/-- An exponent above that of the leading digit of every real in the cell. -/
def ceiling (c : Cell) : Int :=
  let (up, down) := c.unit 0
  let whole := c.high * up / down
  if whole = 0 then 1 - (digitChars (down / (c.high * up))).length
  else (digitChars whole).length

end Cell

/-- Grids that are tried: from the cell's ceiling down, more than any format needs. -/
def grids : Nat := 24

/-- The shortest decimal that rounds to `mantissa * 2 ^ exponent`, the closest of the shortest. -/
def shortest (format : Format) (tie : Tie) (mantissa : Nat) (exponent : Int) : Decimal :=
  let c := Cell.of format mantissa exponent
  let tried := (List.range grids).findSome? fun (i : Nat) =>
    let k := c.ceiling - i
    (c.point? tie k).map fun n => { digits := n, exponent := k : Decimal }
  -- Beyond all grids the exact value stands: its denominator is a power of two.
  tried.getD {
    digits := mantissa * Nat.pow 2 exponent.toNat * Nat.pow 5 (-exponent).toNat
    exponent := -(-exponent).toNat }

/-- The text of a float: sign, then the shortest digits. -/
def Layout.real (l : Layout) (format : Format) : UnpackedFloat → String
  | .notANumber => "NaN"
  | .infinity .positive => "inf"
  | .infinity .negative => "-inf"
  | .zero .positive => String.ofList (l.write ⟨0, 0⟩)
  | .zero .negative => String.ofList ('-' :: l.write ⟨0, 0⟩)
  | .finite .positive m e _ => String.ofList (l.write (shortest format l.tie m e))
  | .finite .negative m e _ => String.ofList ('-' :: l.write (shortest format l.tie m e))

def Layout.single (l : Layout) (x : Float32) : String := l.real .binary32 x.toModel.unpack

def Layout.double (l : Layout) (x : Float) : String := l.real .binary64 x.toModel.unpack

end Decimal
end Dialogue
