/-! Time in seconds, in single precision. A NaN is neither before nor after anything, so a comparison with it is
    false. -/

namespace Dialogue
open Float.Model (Format UnpackedFloat)

/-- A time or a length of time. -/
abbrev Seconds := Float32

namespace Seconds

/-- The closest time to a number in double precision, of two equally close ones the even one. -/
def nearest (x : Float) : Seconds :=
  match x.toModel.unpack with
  | .finite sign mantissa exponent _ =>
    .ofModel (.pack (UnpackedFloat.round .binary32 sign mantissa exponent))
  | other => .ofModel (.pack other)

/-- The later of two times; a NaN gives way to the other. -/
def latest (x y : Seconds) : Seconds :=
  if x.isNaN then y else if y.isNaN then x else if x < y then y else x

/-- The time brought between two bounds; a NaN stays. -/
def clamp (low high x : Seconds) : Seconds :=
  let raised := if x < low then low else x
  if high < raised then high else raised

/-- The least whole number from `x` on, no more than `bound`; nothing for a NaN and below zero. -/
def wholeUpTo (bound : Nat) (x : Seconds) : Nat :=
  match x.toModel.unpack with
  | .finite .positive mantissa exponent _ =>
    let unit := Nat.pow 2 (-exponent).toNat
    min bound ((mantissa * Nat.pow 2 exponent.toNat + unit - 1) / unit)
  | .infinity .positive => bound
  | _ => 0

end Seconds
end Dialogue
