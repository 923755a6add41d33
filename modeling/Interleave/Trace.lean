import Interleave.Controller
/-!
# Traces

A trace is what a closed-loop run leaves behind: one point per iteration, and when each phase of the
workload converged. `Observation` is a point together with the decision that led to it; the first
point of a run and the points that hold a converged ratio have none.
-/
namespace Interleave

inductive Phase where
  | primary
  | secondary
  deriving DecidableEq, Repr

namespace Phase

def name : Phase → String
  | primary => "primary"
  | secondary => "secondary"

def all : List Phase := [primary, secondary]

def ofName? (text : String) : Option Phase := all.find? (·.name = text)

theorem ofName?_name (p : Phase) : ofName? p.name = some p := by cases p <;> decide

end Phase

@[ext] structure TracePoint where
  iteration : Nat
  phase : Phase
  ratio : Nat
  step : Int
  bandwidth : Float
  /-- The rule of the decision that led here, if there was one. -/
  rule : Option Rule
  deriving DecidableEq, Repr

/-- A point and the decision that led to it. -/
structure Observation where
  point : TracePoint
  decision : Option Decision
  deriving DecidableEq, Repr

/-- All points of a run and the iterations that matter. -/
@[ext] structure Trace where
  points : List TracePoint
  /-- Where the first phase converged. -/
  primaryConvergedAt : Option Nat
  /-- The first iteration of the second phase. -/
  switchedAt : Option Nat
  /-- Where the second phase converged. -/
  secondaryConvergedAt : Option Nat
  deriving DecidableEq, Repr

def Trace.finalRatio (t : Trace) : Option Nat := t.points.getLast?.map (·.ratio)

end Interleave
