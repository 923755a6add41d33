import Interleave.Fault
import Interleave.Number.Binary64
/-!
# Telemetry samples

A window of telemetry is represented by one of its samples: the one whose total has a given rank.
Totals are ranked in the total order of their stored forms, so NaNs and signed zeros have places too,
and among equal totals the first to arrive is taken.

Results:
* `rankIndex_lt`: the rank of a percentile lies within the window.
-/
namespace Interleave

/-- One tick of telemetry. The total is what counts; the parts may not add up to it. -/
structure Sample where
  localPart : Binary64
  remotePart : Binary64
  total : Binary64
  deriving DecidableEq, Repr

/-- Percentages that may be asked for. -/
def percentiles (percentile : Int) : Prop := 0 ≤ percentile ∧ percentile ≤ 100

instance (p : Int) : Decidable (percentiles p) := inferInstanceAs (Decidable (_ ∧ _))

/-- The index of a percentile among `count` sorted totals: the whole part of that fraction of them,
less one, and at least the first. -/
def rankIndex (count percentile : Nat) : Nat := min (count * percentile / 100 - 1) (count - 1)

theorem rankIndex_lt {count : Nat} (h : 0 < count) (percentile : Nat) :
    rankIndex count percentile < count := by
  unfold rankIndex; omega

/-- The places of the totals in ascending order. -/
def rankedKeys (samples : List Sample) : List Int := (samples.map (·.total.key)).mergeSort

def selectPercentile (samples : List Sample) (percentile : Int) : Except ControlFault Sample :=
  if percentiles percentile then
    match (rankedKeys samples)[rankIndex samples.length percentile.toNat]? with
    | none => .error .emptySampleSet
    | some key =>
      match samples.find? (·.total.key = key) with
      | none => .error .emptySampleSet
      | some sample => .ok sample
  else .error (.invalidPercentile percentile)

end Interleave
