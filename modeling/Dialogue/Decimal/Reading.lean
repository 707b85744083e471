/-! Numbers read from plain text: digits with a sign, and for reals a point, an exponent and the names of what is not
    finite. -/

namespace Dialogue
namespace Decimal

def digitValue (c : Char) : Nat := c.toNat - 48

/-- The number that decimal digits make. -/
def ofDigits (ds : List Char) : Nat := ds.foldl (fun n d => n * 10 + digitValue d) 0

/-- The number that a text of decimal digits makes. -/
def nat? (cs : List Char) : Option Nat :=
  if cs.isEmpty || !cs.all Char.isDigit then none else some (ofDigits cs)

/-- A sign and the text after it; true for a minus. -/
def sign : List Char → Bool × List Char
  | '-' :: cs => (true, cs)
  | '+' :: cs => (false, cs)
  | cs => (false, cs)

/-- A whole number with or without a sign. -/
def int? (cs : List Char) : Option Int :=
  let (negative, digits) := sign cs
  (nat? digits).map fun n => if negative then -n else n

/-- A count below a bound. It has no minus sign. -/
def natBelow? (bound : Nat) (cs : List Char) : Option Nat := do
  let digits := match cs with
    | '+' :: rest => rest
    | cs => cs
  let n ← nat? digits
  if n < bound then some n else none

/-- A whole number that is a count below a bound. Zero may have a minus sign. -/
def intBelow? (bound : Nat) (cs : List Char) : Option Nat := do
  match ← int? cs with
  | .ofNat n => if n < bound then some n else none
  | .negSucc _ => none

/-- A number after its sign, taken apart: it is `digits * 10 ^ exponent`. -/
structure Reading where
  digits : List Char
  exponent : Int

/-- The exponent that ends a number, or zero. -/
def exponent? : List Char → Option Int
  | [] => some 0
  | e :: rest => if e = 'e' ∨ e = 'E' then int? rest else none

/-- Takes a number apart; it has a digit before its point or after it. -/
def reading? (cs : List Char) : Option Reading := do
  let (whole, rest) := cs.span Char.isDigit
  let (fraction, rest) := match rest with
    | '.' :: rest => rest.span Char.isDigit
    | rest => ([], rest)
  if whole.isEmpty && fraction.isEmpty then none
  else
    let exponent ← exponent? rest
    return { digits := whole ++ fraction, exponent := exponent - fraction.length }

/-- The closest number in single precision. One with its leading digit beyond the fortieth place is infinite, and
    one below the sixtieth decimal place is zero. -/
def Reading.single (r : Reading) : Float32 :=
  let n := ofDigits r.digits
  let leading := (r.digits.dropWhile (· = '0')).length + r.exponent
  if n = 0 ∨ leading < -60 then 0
  else if 40 < leading then 1 / 0
  else Float32.ofScientific n (r.exponent < 0) r.exponent.natAbs

/-- A real number in single precision. -/
def single? (text : String) : Option Float32 :=
  let (negative, cs) := sign text.toList
  let name := String.ofList (cs.map Char.toLower)
  let size :=
    if name = "inf" ∨ name = "infinity" then some (1 / 0)
    else if name = "nan" then some (0 / 0)
    else (reading? cs).map Reading.single
  size.map fun x => if negative then -x else x

end Decimal
end Dialogue
