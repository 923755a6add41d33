import Interleave.Proofs.Controller.Rest
import Interleave.Proofs.Log.Refusal
import Interleave.Proofs.Simulation.Flat
import Interleave.Proofs.Simulation.Slew

/-!
# Validated configurations

A configuration is checked by itself (`RunConfig.validate`, the controller first) and by the simulator
that is built from it (`Simulator.ofCurve`, the limits first). Both refuse the same configurations, and
the logged run of one that is refused ends before its emitter does anything.

What is accepted is sound for every run. A run can fail in a curve, in the control law, or by taking too
long, but none of this is a fault of the configuration; and the integers of the law, from the proposed
step to the new ratio, have room in the words that hold them (`ControllerConfig.FitsWords`). Twice the
dead zone is the exception: it saturates, and a dead zone that is wide enough lets the steps at the ends
of the word through that the double in the integers would hold back.

Results:
* `Simulator.ofCurve_cases`: a simulator is built from what is valid, and from nothing else.
* `Simulator.run_ne_invalidConfig`: no run ends with a fault of its configuration.
* `ControllerConfig.fitsWords_of_advance`: one step of the law, from every step of the word.
* `validated_runs_soundly`: all of it, for every configuration and all curves.
* `doubling_stops_short`: a first step that the exact double would hold back.
-/
namespace Interleave

open Step

/-! ## Two checks -/

namespace Simulator

/-- A simulator is built from a valid configuration, and else names what is wrong, the limits first. -/
theorem ofCurve_cases (primary : Curve) (controller : ControllerConfig) (config : SimulatorConfig) :
    (controller.Valid ∧ config.Valid ∧ ∃ s, ofCurve primary controller config = .ok s) ∨
      ∃ reason, config.fault?.or controller.fault? = some reason ∧
        ofCurve primary controller config = .error (.invalidConfig reason) := by
  unfold ofCurve Controller.ofConfig ControllerConfig.Valid SimulatorConfig.Valid
  split
  · rename_i reason hlimits
    exact .inr ⟨reason, by rw [hlimits]; rfl, rfl⟩
  · rename_i hlimits
    split
    · rename_i reason hcontroller
      exact .inr ⟨reason, by rw [hlimits, hcontroller]; rfl, rfl⟩
    · rename_i hcontroller
      exact .inl ⟨hcontroller, hlimits, _, rfl⟩

/-- The two checks accept the same configurations. -/
theorem validate_iff_ofCurve (c : RunConfig) (primary : Curve) :
    c.validate = .ok () ↔ ∃ s, ofCurve primary c.controller c.simulator = .ok s := by
  rw [RunConfig.validate_eq_ok_iff]
  rcases ofCurve_cases primary c.controller c.simulator with
    ⟨hcontroller, hlimits, hbuilt⟩ | ⟨reason, hreason, hrefused⟩
  · exact iff_of_true ⟨hcontroller, hlimits⟩ hbuilt
  · refine iff_of_false ?_ ?_
    · intro ⟨hcontroller, hlimits⟩
      rw [hcontroller, hlimits] at hreason
      cases hreason
    · intro ⟨s, hs⟩
      rw [hs] at hrefused
      cases hrefused

end Simulator

/-- A logged run of a configuration that is refused names what is wrong, and leaves the emitter as it
was. -/
theorem RunConfig.runLogged_of_refused {c : RunConfig} (h : c.validate ≠ .ok ()) (primary : Curve)
    (secondary : Option Curve) : ∃ reason, c.simulator.fault?.or c.controller.fault? = some reason ∧
      ∀ (duration : Nat) (e : Emitter), (c.runLogged primary secondary duration).run.run e =
        (.error (.control (.invalidConfig reason)), e) := by
  rcases Simulator.ofCurve_cases primary c.controller c.simulator with
    ⟨hcontroller, hlimits, -⟩ | ⟨reason, hreason, hrefused⟩
  · exact absurd (validate_eq_ok_iff.2 ⟨hcontroller, hlimits⟩) h
  · refine ⟨reason, hreason, fun duration e => ?_⟩
    rw [runLogged, Simulator.ofCurves, hrefused]
    rfl

/-! ## Faults of a run -/

theorem ControllerConfig.advance_ne_invalidConfig {c : ControllerConfig} {prev : ControlState}
    {observed : Float} {fault : ControlFault} (h : c.advance prev observed = .error fault)
    (reason : ConfigFault) : fault ≠ .invalidConfig reason := by
  cases advance_eq_error_iff.1 h <;> exact ControlFault.noConfusion

namespace Simulator

theorem IterationFault.ne_invalidConfig {s : Simulator} {fault : ControlFault}
    (h : s.IterationFault fault) (reason : ConfigFault) : fault ≠ .invalidConfig reason := by
  obtain ⟨curve, state, -, h | ⟨bandwidth, -, h⟩⟩ := h
  · intro hfault
    unfold Curve.get at h
    split at h
    · cases h
    · cases h
      cases hfault
  · exact ControllerConfig.advance_ne_invalidConfig h reason

/-- No run ends with a fault of its configuration. -/
theorem run_ne_invalidConfig (s : Simulator) (reason : ConfigFault) :
    s.run.result ≠ .error (.invalidConfig reason) := by
  intro hresult
  rcases s.run_cases with ⟨observed, outcome, hcourse, -, hrun⟩ | ⟨hout, -⟩
  · rw [hrun] at hresult
    dsimp only at hresult
    rw [hresult] at hcourse
    exact hcourse.iterationFault.ne_invalidConfig reason rfl
  · rw [hout] at hresult
    cases hresult

end Simulator

/-- A log ends with a fault of the controller only if its run does, whatever the sink refuses. -/
theorem Run.log_fault {run : Run} {config : RunConfig} {duration : Nat} {e : Emitter}
    {fault : ControlFault} (h : ((run.log config duration).run.run e).1 = .error (.control fault)) :
    run.result = .error fault := by
  rw [log, Fallible.run_bind, Logging.run_adapt, Emitter.record_run] at h
  cases hstart : (e.sink.write ((RunEvent.started config).line e)).1 with
  | error refusal => rw [hstart] at h; cases h
  | ok =>
    rw [hstart] at h
    dsimp only [Except.mapError] at h
    rw [Fallible.run_bind, Logging.run_observing] at h
    dsimp only at h
    cases hresult : run.result with
    | error failure =>
      rw [hresult] at h
      cases h
      rfl
    | ok trace =>
      -- a run that succeeds reports its trace or a refusal of the sink
      rw [hresult] at h
      generalize (RunEvent.recordAll (narration none run.observed)).run.run _ = told at h
      obtain ⟨told, e'⟩ := told
      cases told with
      | error refusal => cases h
      | ok =>
        dsimp only at h
        rw [Fallible.run_bind, Logging.run_adapt, Emitter.record_run] at h
        cases hend : (e'.sink.write ((RunEvent.completed trace duration).line e')).1 with
        | error refusal => rw [hend] at h; cases h
        | ok => rw [hend] at h; cases h

/-! ## Room for the integers of the law -/

namespace ControllerConfig

/-- The integers of one step of the law have room in the words that hold them. -/
structure FitsWords (c : ControllerConfig) (prev next : ControlState) (d : Decision) : Prop where
  proposed : InWord d.proposed
  /-- What a proposal beyond the step limit is cut to. -/
  product : InWord (c.maxStep * d.proposed.sign)
  /-- The double of the dead zone is exact if it has room in the word, and else the end of the word. -/
  double : saturate (2 * c.minStep) = if c.minStep < 2 ^ 30 then 2 * c.minStep else maxValue
  /-- So it holds back the steps below the double in the integers, but for those at the ends of the
  word. -/
  below : ∀ step : Int, magnitude step < saturate (2 * c.minStep) ↔
    step.natAbs < 2 * c.minStep ∧ step.natAbs < maxValue
  step : InWord next.step
  /-- The new ratio is the target of the step, cut to the range of ratios. -/
  target : (next.ratio : Int) = max 0 (min (prev.ratio + next.step) maxRatio)
  byte : next.ratio < 2 ^ 8

variable {c : ControllerConfig} {prev next : ControlState} {observed : Float} {d : Decision}

theorem inWord_product (hc : c.Valid) (hlimit : InWord c.maxStep) (proposed : Int) :
    InWord (c.maxStep * proposed.sign) := by
  obtain ⟨-, hmax, -⟩ := hc.le
  unfold InWord minValue maxValue at *
  rcases Int.sign_trichotomy proposed with h | h | h <;> rw [h] <;> omega

theorem saturate_double (hc : c.Valid) :
    saturate (2 * c.minStep) = if c.minStep < 2 ^ 30 then 2 * c.minStep else maxValue := by
  obtain ⟨hmin, -, -⟩ := hc.le
  unfold saturate minValue maxValue
  split <;> omega

theorem magnitude_lt_double (hc : c.Valid) (step : Int) :
    magnitude step < saturate (2 * c.minStep) ↔
      step.natAbs < 2 * c.minStep ∧ step.natAbs < maxValue := by
  obtain ⟨hmin, -, -⟩ := hc.le
  unfold magnitude saturate minValue maxValue
  omega

theorem fitsWords_of_advance (hc : c.Valid) (hlimit : InWord c.maxStep) (hword : InWord prev.step)
    (h : c.advance prev observed = .ok (next, d)) : c.FitsWords prev next d := by
  obtain ⟨hproposes, hnext⟩ := advance_cases h
  have hproposed := hproposes.inWord hword
  have hratio := advance_ratio_le h
  refine ⟨hproposed, inWord_product hc hlimit _, saturate_double hc, magnitude_lt_double hc, ?_, ?_, ?_⟩
  · rw [hnext]
    exact inWord_limit hc hproposed
  · rw [hnext]
    simp only [moveRatio]
    unfold maxRatio
    omega
  · unfold maxRatio at hratio
    omega

end ControllerConfig

/-- The two checks of a configuration accept the same ones. If it is refused, the logged run says what is
wrong, and neither writes a line nor gives out a trace id. If it is accepted, no run ends with a fault of
the configuration, with any curves and any sink for the log, every step of the run is one of the word,
and so are the integers of the law, after every step of the word and on every observation; twice the dead
zone is cut to the word. -/
theorem validated_runs_soundly (c : RunConfig) (primary : Curve) (secondary : Option Curve) :
    (c.validate = .ok () ↔ ∃ s, Simulator.ofCurve primary c.controller c.simulator = .ok s) ∧
    (c.validate ≠ .ok () → ∃ reason, c.simulator.fault?.or c.controller.fault? = some reason ∧
      ∀ (duration : Nat) (e : Emitter), (c.runLogged primary secondary duration).run.run e =
        (.error (.control (.invalidConfig reason)), e)) ∧
    (c.validate = .ok () → ∃ s, Simulator.ofCurves c primary secondary = .ok s ∧
      (∀ reason, s.run.result ≠ .error (.invalidConfig reason)) ∧
      (∀ (duration : Nat) (e : Emitter) (reason : ConfigFault),
        ((c.runLogged primary secondary duration).run.run e).1 ≠
          .error (.control (.invalidConfig reason))) ∧
      (∀ o ∈ s.run.observed, InWord o.point.step) ∧
      (InWord c.controller.maxStep → ∀ (prev next : ControlState) (observed : Float) (d : Decision),
        InWord prev.step → c.controller.advance prev observed = .ok (next, d) →
          c.controller.FitsWords prev next d)) := by
  refine ⟨Simulator.validate_iff_ofCurve c primary,
    fun h => RunConfig.runLogged_of_refused h primary secondary, ?_⟩
  intro hvalid
  obtain ⟨s, hs⟩ := Simulator.exists_ofCurves hvalid primary secondary
  refine ⟨s, hs, s.run_ne_invalidConfig, ?_, ?_, ?_⟩
  · intro duration e reason hfault
    rw [RunConfig.runLogged, hs] at hfault
    exact s.run_ne_invalidConfig reason (Run.log_fault hfault)
  · intro o ho
    obtain ⟨k, hk⟩ := List.mem_iff_getElem?.1 ho
    exact (Simulator.run_bounds hk).2
  · intro hlimit prev next observed d hword hadvance
    exact ControllerConfig.fitsWords_of_advance (RunConfig.validate_eq_ok_iff.1 hvalid).1 hlimit hword
      hadvance

/-- The double of the widest dead zone stops at the end of the word, and an infinite loss is taken for
the most negative step. Of a configuration with two faults, the limits are named first. -/
theorem validated_runs_soundly_sluggish :
    (RunConfig.mk .sluggish {}).validate = .ok () ∧
      ControllerConfig.sluggish.FitsWords ⟨1, 0, 5e-324⟩ ⟨0, minValue, 500.0⟩
        ⟨.coldStart, minValue, false, false, true⟩ ∧
      (RunConfig.mk { maxStep := 0 } { maxIterations := 0 }).validate =
        .error (.invalidConfig (.maxStepNotPositive 0)) ∧
      ((RunConfig.mk { maxStep := 0 } { maxIterations := 0 }).runLogged Simulator.rising.primary none
        12).run.run { runId := "run", component := "simulator" } =
          (.error (.control (.invalidConfig .noIterations)),
            { runId := "run", component := "simulator" }) := by
  have hvalid : (RunConfig.mk .sluggish {}).validate = .ok () := by decide
  have hrefused : (RunConfig.mk { maxStep := 0 } { maxIterations := 0 }).validate =
      .error (.invalidConfig (.maxStepNotPositive 0)) := by decide
  obtain ⟨s, -, -, -, -, hfits⟩ :=
    (validated_runs_soundly (.mk .sluggish {}) Simulator.rising.primary none).2.2 hvalid
  obtain ⟨reason, hreason, hrun⟩ :=
    (validated_runs_soundly (.mk { maxStep := 0 } { maxIterations := 0 }) Simulator.rising.primary
      none).2.1 (by decide)
  cases hreason
  exact ⟨hvalid, hfits (by decide) _ _ 500.0 _ (by decide) (by decide +kernel), hrefused, hrun _ _⟩

/-- The narrowest dead zone whose double has no room in the word. -/
def ControllerConfig.drowsy : ControllerConfig := { minStep := 2 ^ 30, maxStep := maxValue }

/-- The default simulator with that dead zone, on a curve that takes its first step to the end of the
word. -/
def Simulator.drowsy : Simulator :=
  { Simulator.settling with
    controller := ⟨.drowsy, by decide⟩
    primary := ⟨[⟨0, 21474837.47⟩, ⟨100, 21474837.47⟩], by decide, by simp [CurvePoint.Ascending],
      by decide, by decide⟩ }

/-- The first step of the run comes to the end of the word. It is below twice the dead zone in the
integers, but not below the double as it is cut, and so it is taken. -/
theorem doubling_stops_short :
    Simulator.drowsy.runConfig = ⟨.drowsy, {}⟩ ∧ (RunConfig.mk .drowsy {}).validate = .ok () ∧
      InWord ControllerConfig.drowsy.maxStep ∧
      saturate (2 * ControllerConfig.drowsy.minStep) ≠ 2 * ControllerConfig.drowsy.minStep ∧
      (-maxValue).natAbs < 2 * ControllerConfig.drowsy.minStep ∧
      Simulator.drowsy.controller.iterate Simulator.drowsy.primary Simulator.drowsy.initial =
        .ok (⟨0, -maxValue, 21474837.47⟩, ⟨.coldStart, -maxValue, false, false, true⟩) :=
  ⟨rfl, by decide +kernel⟩

end Interleave
