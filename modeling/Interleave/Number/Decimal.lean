/-!
# Decimal numbers

A decimal is `coefficient · 10^exponent`. `Decimal.toFloat` is the nearest binary64 number, ties to
even, an infinity beyond the range.
-/
namespace Interleave

/-- The number `coefficient · 10^exponent`. -/
structure Decimal where
  coefficient : Nat
  exponent : Int
  deriving DecidableEq, Repr

namespace Decimal

/-- The nearest binary64 number. -/
def toFloat (d : Decimal) : Float :=
  if d.exponent < 0 then Float.ofScientific d.coefficient true d.exponent.natAbs
  else Float.ofScientific d.coefficient false d.exponent.natAbs

/-- The value of a word of decimal digits, most significant first. -/
def ofDigits (digits : List Char) : Nat :=
  digits.foldl (fun n c => 10 * n + (c.toNat - '0'.toNat)) 0

/-- The decimal digits of a natural number, most significant first; `0` has one digit. -/
def digits (n : Nat) : List Char := Nat.toDigits 10 n

/-- Digits before and after a point, with a power of ten. -/
def ofParts (whole fraction : List Char) (power : Int) : Decimal :=
  ⟨ofDigits (whole ++ fraction), power - fraction.length⟩

end Decimal

end Interleave
