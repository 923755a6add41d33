import Interleave.Config
/-!
# The control law

Every period the controller observes one bandwidth and moves the ratio by a signed step. With
`loss = (previous - observed) / previous`, the rule in charge proposes

* low-bandwidth escape (`observed` below the threshold): the size of the last step, upwards;
* cold start (the last step was 0): `ratio · loss`, or nothing if that is less than two dead zones;
* improving (`observed` above `previous`): the last step, damped by `|100 · loss / step|` if that is
  less than 1;
* regressing (all else): half the last step, backwards.

`limit` then drops a proposal inside the dead zone and cuts one beyond the step limit, and `move` keeps
the new ratio between 0 and 100.

Results:
* `advance_ratio_le`: the ratio of every new state is at most 100.
* `advance_bandwidth`: the new state remembers the observation.
-/
namespace Interleave

inductive Rule where
  | lowBandwidthEscape
  | coldStart
  | improving
  | regressing
  deriving DecidableEq, Repr

namespace Rule

def name : Rule → String
  | lowBandwidthEscape => "LowBandwidthEscape"
  | coldStart => "ColdStart"
  | improving => "Improving"
  | regressing => "Regressing"

def all : List Rule := [lowBandwidthEscape, coldStart, improving, regressing]

def ofName? (text : String) : Option Rule := all.find? (·.name = text)

theorem ofName?_name (r : Rule) : ofName? r.name = some r := by cases r <;> decide

end Rule

/-- What the controller carries from one period to the next. -/
structure ControlState where
  /-- Percent of the data in local memory. -/
  ratio : Nat
  /-- The step that led to `ratio`. -/
  step : Int
  /-- The bandwidth observed at the ratio before. -/
  bandwidth : Float
  deriving DecidableEq, Repr, Inhabited

/-- Why a state follows another. -/
structure Decision where
  rule : Rule
  /-- The step before the limits. -/
  proposed : Int
  /-- A step other than 0 was dropped. -/
  deadZone : Bool
  /-- The step was cut to the limit. -/
  saturated : Bool
  /-- The step led out of the range of ratios. -/
  ratioClamped : Bool
  deriving DecidableEq, Repr

/-- The part of the previous bandwidth that is lost. -/
def relativeLoss (place : ChangeOf) (previous observed : Float) : Except ControlFault Float :=
  if previous == 0.0 then .error (.divisionByZero place)
  else .ok ((previous - observed) / previous)

/-- A ratio moved by a step, and whether it hit the end of its range. -/
def moveRatio (ratio : Nat) (step : Int) : Nat × Bool :=
  let target : Int := ratio + step
  (min target.toNat maxRatio, target < 0 || (maxRatio : Int) < target)

namespace ControllerConfig

def coldStep (c : ControllerConfig) (ratio : Nat) (loss : Float) : Int :=
  let step := Step.ofFloat c.rounding (Float.ofNat ratio * loss)
  if Step.magnitude step < Step.saturate (2 * c.minStep) then 0 else step

/-- The last step, damped as the improvement levels off. -/
def dampedStep (c : ControllerConfig) (last : Int) (loss : Float) : Int :=
  let damping := (loss * 100.0 / Float.ofInt last).abs
  if damping < 1.0 then Step.ofFloat c.rounding (damping * Float.ofInt last) else last

/-- Half of the last step, backwards. -/
def reversedStep (c : ControllerConfig) (last : Int) : Int :=
  Step.ofFloat c.rounding (-(Float.ofInt last) / 2.0)

/-- The rule in charge and the step that it proposes. -/
def propose (c : ControllerConfig) (prev : ControlState) (observed : Float) :
    Except ControlFault (Rule × Int) :=
  if observed < c.lowBandwidthThreshold then
    .ok (.lowBandwidthEscape, Step.magnitude prev.step)
  else if prev.step = 0 then
    (relativeLoss .coldStart prev.bandwidth observed).map fun loss =>
      (.coldStart, c.coldStep prev.ratio loss)
  else if prev.bandwidth < observed then
    (relativeLoss .damping prev.bandwidth observed).map fun loss =>
      (.improving, c.dampedStep prev.step loss)
  else .ok (.regressing, c.reversedStep prev.step)

/-- A step within the limits. -/
structure Limited where
  step : Int
  deadZone : Bool
  saturated : Bool
  deriving DecidableEq, Repr

/-- The proposal within the limits: dropped below the dead zone, and cut at the step limit. -/
def limit (c : ControllerConfig) (proposed : Int) : Limited :=
  if Step.magnitude proposed < c.minStep then ⟨0, proposed ≠ 0, false⟩
  else if c.maxStep < Step.magnitude proposed then ⟨c.maxStep * proposed.sign, false, true⟩
  else ⟨proposed, false, false⟩

/-- The state after a proposal, and the decision that explains it. -/
def apply (c : ControllerConfig) (prev : ControlState) (observed : Float) (rule : Rule)
    (proposed : Int) : ControlState × Decision :=
  let limited := c.limit proposed
  let moved := moveRatio prev.ratio limited.step
  (⟨moved.1, limited.step, observed⟩,
    ⟨rule, proposed, limited.deadZone, limited.saturated, moved.2⟩)

/-- The next state and the decision that led to it. Neither the observation nor the bandwidth before
may be infinite or NaN. -/
def advance (c : ControllerConfig) (prev : ControlState) (observed : Float) :
    Except ControlFault (ControlState × Decision) :=
  if !observed.isFinite then .error (.invalidBandwidth prev.ratio observed)
  else if !prev.bandwidth.isFinite then .error (.invalidBandwidth prev.ratio prev.bandwidth)
  else (c.propose prev observed).map fun (rule, proposed) => c.apply prev observed rule proposed

/-- The next state. -/
def adjust (c : ControllerConfig) (prev : ControlState) (observed : Float) :
    Except ControlFault ControlState :=
  (c.advance prev observed).map Prod.fst

theorem advance_eq_apply {c : ControllerConfig} {prev next : ControlState} {observed : Float}
    {d : Decision} (h : c.advance prev observed = .ok (next, d)) :
    (next, d) = c.apply prev observed d.rule d.proposed := by
  unfold advance at h
  split at h
  · cases h
  · split at h
    · cases h
    · cases hp : c.propose prev observed with
      | error e => simp [hp, Except.map] at h
      | ok p =>
        simp only [hp, Except.map, Except.ok.injEq] at h
        rw [← h]
        simp only [apply, Prod.mk.injEq] at h ⊢
        simp [← h.2]

theorem advance_ratio_le {c : ControllerConfig} {prev next : ControlState} {observed : Float}
    {d : Decision} (h : c.advance prev observed = .ok (next, d)) : next.ratio ≤ maxRatio := by
  have h := congrArg (·.1.ratio) (advance_eq_apply h)
  simp only [apply, moveRatio] at h
  omega

theorem advance_bandwidth {c : ControllerConfig} {prev next : ControlState} {observed : Float}
    {d : Decision} (h : c.advance prev observed = .ok (next, d)) : next.bandwidth = observed := by
  simpa [apply] using congrArg (·.1.bandwidth) (advance_eq_apply h)

end ControllerConfig

/-- A controller runs on a configuration that nothing is wrong with. -/
structure Controller where
  config : ControllerConfig
  valid : config.Valid

namespace Controller

def ofConfig (config : ControllerConfig) : Except ControlFault Controller :=
  match h : config.fault? with
  | some reason => .error (.invalidConfig reason)
  | none => .ok ⟨config, h⟩

/-- The next state and the decision that led to it. -/
def advance (c : Controller) (prev : ControlState) (observed : Float) :
    Except ControlFault (ControlState × Decision) :=
  c.config.advance prev observed

end Controller

end Interleave
