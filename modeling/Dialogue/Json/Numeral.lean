/-! Numbers as JSON texts write them, and the numbers they stand for. A numeral without fraction and exponent is
    whole if it fits 64 bits. Any other is a real: as many leading digits as fit 64 bits are taken and scaled once
    by a power of ten, in double precision; beyond the reach of double precision it stands for nothing. -/

namespace Dialogue
namespace Json

inductive Number where
  | int (value : Int)
  | real (value : Float)
  deriving Repr

/-- The digits of a number, as values from 0 to 9, in the order they are written. -/
structure Numeral where
  negative : Bool
  whole : List Nat
  fraction : Option (List Nat)
  /-- Whether the exponent is negative, and its digits. -/
  exponent : Option (Bool × List Nat)
  deriving Repr, DecidableEq

namespace Numeral

/-- Digits are taken while the number they make is below this bound. -/
def bound : Nat := UInt64.size

/-- The number that the leading digits make, and how many digits after them are left out. -/
def takeWhole (n : Nat) : List Nat → Nat × Nat
  | [] => (n, 0)
  | d :: ds => if n * 10 + d < bound then takeWhole (n * 10 + d) ds else (n, ds.length + 1)

/-- The number that leading digits make after `n`, and how many digits are taken. -/
def takeFraction (n : Nat) : List Nat → Nat × Nat
  | [] => (n, 0)
  | d :: ds =>
    if n * 10 + d < bound then
      let (m, taken) := takeFraction (n * 10 + d) ds
      (m, taken + 1)
    else (n, 0)

def ofDigits (ds : List Nat) : Nat := ds.foldl (fun n d => n * 10 + d) 0

/-- The power of ten closest to the true one. -/
def tenTo (e : Nat) : Float := Float.ofScientific 1 false e

/-- `n * 10 ^ e`, or nothing if it is beyond double precision. A significand has at most twenty digits, so that two
    divisions by `10 ^ 308` leave nothing of it. -/
def scale (n : Nat) (e : Int) : Option Float :=
  let x := Float.ofNat n
  if n = 0 then some x
  else if 0 ≤ e then
    if 308 < e then none
    else
      let y := x * tenTo e.toNat
      if y.isInf then none else some y
  else
    let down := (-e).toNat
    if down ≤ 308 then some (x / tenTo down)
    else if down ≤ 616 then some (x / tenTo 308 / tenTo (down - 308))
    else some (Float.ofNat 0)

/-- The number a numeral stands for. A zero with a minus sign is a real. -/
def value? (n : Numeral) : Option Number :=
  let signed (x : Float) : Number := .real (if n.negative then -x else x)
  let (whole, omitted) := takeWhole 0 n.whole
  match n.fraction, n.exponent with
  | none, none =>
    if omitted = 0 then
      if !n.negative then some (.int whole)
      else if 0 < whole ∧ whole ≤ bound / 2 then some (.int (-whole))
      else some (signed (Float.ofNat whole))
    else (scale whole omitted).map signed
  | fraction, exponent =>
    let (significand, taken) := takeFraction whole (fraction.getD [])
    let shift : Int := match exponent with
      | none => 0
      | some (true, ds) => -(ofDigits ds : Int)
      | some (false, ds) => ofDigits ds
    (scale significand (omitted - taken + shift)).map signed

end Numeral
end Json
end Dialogue
