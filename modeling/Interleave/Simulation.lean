import Interleave.Curve
import Interleave.Trace
/-!
# Closed-loop simulation

A recorded curve stands in for the machine: every iteration observes what the curve says at the
current ratio. A phase has converged when an iteration leaves the ratio as it is. With a second curve,
the run then holds the ratio for some points, starts from rest and follows the second curve.

A run records every point that it comes to and then tells an observer of it. `Progress` is how far the
two have come. `Progress.climb` follows one curve and `budget` counts the points that may still be
recorded, so a run ends in one of three ways: converged, out of points, or a fault of the curve or the
control law.

Results:
* `Simulator.ofCurves_self`, `Simulator.of_ofCurves`: a simulator is that of its own configuration and
  curves.
-/
namespace Interleave

/-- How a climb ends. -/
inductive Ending where
  /-- The point of this iteration, the last one, repeats a ratio; `budget` points are left. -/
  | converged (iteration : Nat) (state : ControlState) (budget : Nat)
  /-- There is no room for another point. -/
  | outOfPoints
  | failed (fault : ControlFault)
  deriving DecidableEq, Repr

/-- One iteration on a curve. -/
def Controller.iterate (controller : Controller) (curve : Curve) (state : ControlState) :
    Except ControlFault (ControlState × Decision) := do
  controller.advance state (← curve.get state.ratio)

/-- The state that is held, without a step to go on from. -/
def ControlState.atRest (state : ControlState) : ControlState := { state with step := 0 }

/-- What a run shows: all that its observer was told, and the trace or the fault at the end. -/
structure Run where
  observed : List Observation
  result : Except ControlFault Trace

/-- A run under way: the points that are recorded, and what the observer was told. -/
structure Progress where
  points : Array TracePoint := #[]
  told : Array Observation := #[]

namespace Progress

/-- Records a state behind the points so far, which number it. -/
def record (p : Progress) (phase : Phase) (state : ControlState) (rule : Option Rule) :
    TracePoint × Progress :=
  let point : TracePoint := ⟨p.points.size, phase, state.ratio, state.step, state.bandwidth, rule⟩
  (point, { p with points := p.points.push point })

/-- Tells the observer of a point and of the decision that led to it. -/
def tell (p : Progress) (point : TracePoint) (decision : Option Decision) : Progress :=
  { p with told := p.told.push ⟨point, decision⟩ }

/-- Follows a curve from `state` until the ratio repeats. -/
def climb (controller : Controller) (curve : Curve) (phase : Phase) :
    (budget : Nat) → Progress → ControlState → Progress × Ending
  | 0, p, _ => (p, .outOfPoints)
  | budget + 1, p, state =>
    match controller.iterate curve state with
    | .error fault => (p, .failed fault)
    | .ok (next, decision) =>
      let (point, p) := p.record phase next (some decision.rule)
      let p := p.tell point (some decision)
      if next.ratio = state.ratio then (p, .converged point.iteration next budget)
      else climb controller curve phase budget p next

/-- Holds a state for `count` points. -/
def hold (phase : Phase) (state : ControlState) : (count : Nat) → Progress → Progress
  | 0, p => p
  | count + 1, p =>
    let (point, p) := p.record phase state none
    hold phase state count (p.tell point none)

/-- The run that ends here. -/
def close (p : Progress) (result : Except ControlFault Trace) : Run := ⟨p.told.toList, result⟩

/-- The run that ends here since there is no room for another point. -/
def timeOut (p : Progress) : Run := p.close (.error (.noConvergence p.points.size))

/-- The run that ends here with a trace. -/
def complete (p : Progress) (primaryAt switchedAt secondaryAt : Option Nat) : Run :=
  p.close (.ok ⟨p.points.toList, primaryAt, switchedAt, secondaryAt⟩)

end Progress

/-- A simulator: a controller, limits that nothing is wrong with, and one or two curves. -/
structure Simulator where
  controller : Controller
  config : SimulatorConfig
  valid : config.Valid
  primary : Curve
  secondary : Option Curve

namespace Simulator

/-- The simulator of one curve. The limits are checked before the controller configuration. -/
def ofCurve (primary : Curve) (controller : ControllerConfig) (config : SimulatorConfig) :
    Except ControlFault Simulator :=
  match h : config.fault? with
  | some reason => .error (.invalidConfig reason)
  | none => (Controller.ofConfig controller).map fun controller =>
      ⟨controller, config, h, primary, none⟩

/-- The simulator with a second curve to follow after the first. -/
def withSecondary (s : Simulator) (secondary : Curve) : Simulator :=
  { s with secondary := some secondary }

/-- The simulator of a configuration, with a second curve if there is one. -/
def ofCurves (config : RunConfig) (primary : Curve) (secondary : Option Curve) :
    Except ControlFault Simulator :=
  (ofCurve primary config.controller config.simulator).map fun s =>
    match secondary with
    | none => s
    | some curve => s.withSecondary curve

/-- The configuration that the simulator runs on. -/
def runConfig (s : Simulator) : RunConfig := ⟨s.controller.config, s.config⟩

/-- A simulator is that of its own configuration and curves. -/
theorem ofCurves_self (s : Simulator) : ofCurves s.runConfig s.primary s.secondary = .ok s := by
  obtain ⟨⟨controller, hcontroller⟩, config, hconfig, primary, secondary⟩ := s
  have hone : ofCurve primary controller config =
      .ok ⟨⟨controller, hcontroller⟩, config, hconfig, primary, none⟩ := by
    unfold ofCurve Controller.ofConfig
    grind [SimulatorConfig.Valid, ControllerConfig.Valid, Except.map]
  unfold ofCurves runConfig
  dsimp only
  rw [hone]
  cases secondary <;> rfl

theorem of_ofCurves {s : Simulator} {c : RunConfig} {primary : Curve} {secondary : Option Curve}
    (h : ofCurves c primary secondary = .ok s) :
    s.runConfig = c ∧ s.primary = primary ∧ s.secondary = secondary := by
  unfold ofCurves ofCurve Controller.ofConfig at h
  split at h
  · cases h
  · split at h
    · cases h
    · cases secondary <;> cases h <;> exact ⟨rfl, rfl, rfl⟩

theorem ofCurves_some (c : RunConfig) (primary secondary : Curve) :
    ofCurves c primary (some secondary) = (ofCurves c primary none).map (·.withSecondary secondary) := by
  unfold ofCurves
  cases ofCurve primary c.controller c.simulator <;> rfl

/-- The state before the first iteration. -/
def initial (s : Simulator) : ControlState := ⟨s.config.initialRatio, 0, s.config.initialBandwidth⟩

/-- Goes on with the second curve, where the first phase has converged at iteration `primaryAt`: the
state is held, and then followed from rest. -/
def switchTo (s : Simulator) (curve : Curve) (p : Progress) (primaryAt : Nat) (state : ControlState)
    (budget : Nat) : Run :=
  let p := Progress.hold .primary state.atRest (min s.config.holdIterations budget) p
  if budget < s.config.holdIterations then p.timeOut
  else
    let switchedAt := p.points.size
    let (p, ending) :=
      Progress.climb s.controller curve .secondary (budget - s.config.holdIterations) p state.atRest
    match ending with
    | .converged secondaryAt _ _ => p.complete (some primaryAt) (some switchedAt) (some secondaryAt)
    | .outOfPoints => p.timeOut
    | .failed fault => p.close (.error fault)

/-- The whole run. -/
def run (s : Simulator) : Run :=
  let (first, p) := Progress.record {} .primary s.initial none
  let p := p.tell first none
  let (p, ending) :=
    Progress.climb s.controller s.primary .primary (s.config.maxIterations - 1) p s.initial
  match ending with
  | .outOfPoints => p.timeOut
  | .failed fault => p.close (.error fault)
  | .converged primaryAt state budget =>
    match s.secondary with
    | none => p.complete (some primaryAt) none none
    | some curve => s.switchTo curve p primaryAt state budget

end Simulator

end Interleave
