import Interleave.Fault
import Interleave.Step
/-!
# Configuration

`ControllerConfig` tunes the control law and `SimulatorConfig` the closed loop around it. `fault?`
names the first thing that is wrong with a configuration; one without a fault is `Valid`.

Results:
* `ControllerConfig.Valid.le`: the dead zone of a valid configuration lies within its step limit.
* `ControllerConfig.Valid.isFinite`, `SimulatorConfig.Valid.usable`: its bandwidths are numbers.
* `RunConfig.validate_eq_ok_iff`: a configuration is accepted if nothing is wrong with its two parts.
-/
namespace Interleave

/-- The largest ratio: all data in local memory. -/
def maxRatio : Nat := 100

/-- How far and how eagerly the ratio moves. -/
structure ControllerConfig where
  /-- Smaller steps are dropped. -/
  minStep : Int := 2
  /-- Larger steps are cut to this size. -/
  maxStep : Int := 8
  /-- Below this bandwidth the last step is repeated upwards. -/
  lowBandwidthThreshold : Float := 250.0
  rounding : Rounding := .nearest
  deriving DecidableEq, Repr, Inhabited

namespace ControllerConfig

/-- The first thing that is wrong. -/
def fault? (c : ControllerConfig) : Option ConfigFault :=
  if c.minStep < 0 then some (.minStepNegative c.minStep)
  else if c.maxStep ≤ 0 then some (.maxStepNotPositive c.maxStep)
  else if c.maxStep < c.minStep then some (.minStepExceedsMaxStep c.minStep c.maxStep)
  else if !c.lowBandwidthThreshold.isFinite || c.lowBandwidthThreshold < 0.0 then
    some (.thresholdOutOfRange c.lowBandwidthThreshold)
  else none

/-- Nothing is wrong. -/
def Valid (c : ControllerConfig) : Prop := c.fault? = none

instance (c : ControllerConfig) : Decidable c.Valid := inferInstanceAs (Decidable (_ = _))

theorem valid_default : ({} : ControllerConfig).Valid := by decide

/-- Refuses a configuration that the control law cannot run with. -/
def validate (c : ControllerConfig) : Except ControlFault Unit :=
  match c.fault? with
  | some reason => .error (.invalidConfig reason)
  | none => .ok ()

theorem Valid.le {c : ControllerConfig} (h : c.Valid) :
    0 ≤ c.minStep ∧ 0 < c.maxStep ∧ c.minStep ≤ c.maxStep := by
  unfold Valid fault? at h
  grind

theorem Valid.isFinite {c : ControllerConfig} (h : c.Valid) :
    c.lowBandwidthThreshold.isFinite = true := by
  unfold Valid fault? at h
  grind

end ControllerConfig

/-- Where a simulated run starts and how long it may take. -/
structure SimulatorConfig where
  /-- The first ratio. -/
  initialRatio : Nat := 100
  /-- What stands for the bandwidth before the first iteration. -/
  initialBandwidth : Float := 1.0
  /-- Points that hold the converged ratio before the workload changes. -/
  holdIterations : Nat := 3
  /-- The most points that a run records. -/
  maxIterations : Nat := 1000
  deriving DecidableEq, Repr, Inhabited

namespace SimulatorConfig

/-- The first thing that is wrong. -/
def fault? (c : SimulatorConfig) : Option ConfigFault :=
  if maxRatio < c.initialRatio then some (.initialRatioTooLarge c.initialRatio)
  else if !c.initialBandwidth.isFinite || c.initialBandwidth == 0.0 then
    some (.initialBandwidthUnusable c.initialBandwidth)
  else if c.maxIterations = 0 then some .noIterations
  else none

/-- Nothing is wrong. -/
def Valid (c : SimulatorConfig) : Prop := c.fault? = none

instance (c : SimulatorConfig) : Decidable c.Valid := inferInstanceAs (Decidable (_ = _))

/-- Refuses a configuration that no run can start from. -/
def validate (c : SimulatorConfig) : Except ControlFault Unit :=
  match c.fault? with
  | some reason => .error (.invalidConfig reason)
  | none => .ok ()

theorem Valid.bounds {c : SimulatorConfig} (h : c.Valid) :
    c.initialRatio ≤ maxRatio ∧ 0 < c.maxIterations := by
  unfold Valid fault? at h
  grind

theorem Valid.usable {c : SimulatorConfig} (h : c.Valid) :
    c.initialBandwidth.isFinite = true ∧ (c.initialBandwidth == 0.0) = false := by
  unfold Valid fault? at h
  grind

end SimulatorConfig

/-- The configuration of a whole run. -/
structure RunConfig where
  controller : ControllerConfig := {}
  simulator : SimulatorConfig := {}
  deriving DecidableEq, Repr, Inhabited

/-- Refuses a configuration by its controller part first. -/
def RunConfig.validate (c : RunConfig) : Except ControlFault Unit := do
  c.controller.validate
  c.simulator.validate

theorem RunConfig.validate_eq_ok_iff {c : RunConfig} :
    c.validate = .ok () ↔ c.controller.Valid ∧ c.simulator.Valid := by
  unfold validate ControllerConfig.validate SimulatorConfig.validate
  unfold ControllerConfig.Valid SimulatorConfig.Valid
  cases c.controller.fault? <;> cases c.simulator.fault? <;> simp [bind, Except.bind]

end Interleave
