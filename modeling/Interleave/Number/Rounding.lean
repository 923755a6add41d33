/-!
# Rounding a number to an integer

`Rounding.toInt` rounds exactly, from the mantissa and exponent of the number: half away from zero, or
toward zero. NaN rounds to 0 and the infinities to the bounds given.
-/
namespace Interleave


/-- How a fraction is turned into an integer. -/
inductive Rounding where
  /-- To the nearest integer, a half away from zero. -/
  | nearest
  /-- The fraction is dropped. -/
  | towardZero
  deriving DecidableEq, Repr, Inhabited

namespace Rounding

/-- `numerator / denominator` rounded to a natural number. -/
def quotient (mode : Rounding) (numerator denominator : Nat) : Nat :=
  match mode with
  | nearest => (2 * numerator + denominator) / (2 * denominator)
  | towardZero => numerator / denominator

/-- `mantissa · 2^exponent` rounded to a natural number. -/
def magnitude (mode : Rounding) (mantissa : Nat) (exponent : Int) : Nat :=
  if 0 ≤ exponent then mantissa * Nat.pow 2 exponent.toNat
  else mode.quotient mantissa (Nat.pow 2 (-exponent).toNat)

/-- The number rounded to an integer; `bottom` and `top` stand for the infinities. -/
def toInt (mode : Rounding) (bottom top : Int) (x : Float) : Int :=
  match x.toModel.unpack with
  | .notANumber => 0
  | .zero _ => 0
  | .infinity .negative => bottom
  | .infinity .positive => top
  | .finite .negative m e _ => -(mode.magnitude m e : Int)
  | .finite .positive m e _ => mode.magnitude m e

end Rounding

end Interleave
