import Interleave.Number.Decimal
/-!
# Scaling by powers of ten

`Decimal.scaled?` finds a binary64 number for `coefficient · 10^exponent` with the arithmetic of binary64
alone: the coefficient is rounded, and then multiplied or divided by a power of ten, at most 308 places at
a time. Each step rounds, so the result may be a neighbour of the nearest number. It is the nearest one
when the coefficient has at most 15 digits and the exponent at most 22 places.
-/
namespace Interleave

/-- The number of places that one step can move the point. -/
def maxPlaces : Nat := 308

/-- The binary64 number nearest to a power of ten. -/
def powerOfTen (places : Nat) : Float := (Decimal.mk 1 places).toFloat

/-- `x · 10^places`, or nothing beyond the range. -/
def scaleUp? (x : Float) (places : Nat) : Option Float :=
  if places ≤ maxPlaces then
    let y := x * powerOfTen places
    if y.isFinite then some y else none
  else if x == 0.0 then some x
  else none

/-- `x / 10^places`; what is too small becomes zero. -/
def scaleDown (x : Float) (places : Nat) : Float :=
  if places ≤ maxPlaces then x / powerOfTen places
  else if x == 0.0 then x
  else scaleDown (x / powerOfTen maxPlaces) (places - maxPlaces)
termination_by places
decreasing_by unfold maxPlaces at *; omega

namespace Decimal

/-- The number by scaling, or nothing beyond the range. -/
def scaled? (d : Decimal) : Option Float :=
  let x := (Decimal.mk d.coefficient 0).toFloat
  if 0 ≤ d.exponent then scaleUp? x d.exponent.natAbs
  else some (scaleDown x d.exponent.natAbs)

end Decimal

end Interleave
