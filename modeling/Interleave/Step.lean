import Interleave.Number.Rounding
/-!
# Steps

A step is a signed number of percent, held in a 32-bit word: rounding and doubling saturate at the
bounds of the word, and so does the magnitude of the most negative step.

Results:
* `magnitude_nonneg`, `saturate_of_mem`: what the saturating operations keep.
-/
namespace Interleave.Step

def minValue : Int := -0x80000000

def maxValue : Int := 0x7FFFFFFF

/-- The nearest step. -/
def saturate (n : Int) : Int := max minValue (min n maxValue)

/-- The size of a step without its sign. -/
def magnitude (step : Int) : Int := min step.natAbs maxValue

/-- A fraction of a percent turned into a step; NaN is no step. -/
def ofFloat (mode : Rounding) (x : Float) : Int := saturate (mode.toInt minValue maxValue x)

theorem magnitude_nonneg (step : Int) : 0 ≤ magnitude step := by
  unfold magnitude maxValue; omega

theorem saturate_of_mem {n : Int} (h : minValue ≤ n ∧ n ≤ maxValue) : saturate n = n := by
  unfold saturate; omega

end Interleave.Step
