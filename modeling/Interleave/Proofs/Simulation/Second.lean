import Interleave.Proofs.Simulation.Links

/-!
# A second curve

A simulator with a second curve runs as it does without one up to the convergence of the first climb,
where the run without one ends. Everything that the second phase may do, to hold the state, to follow
the second curve, to fail or to run out of points, comes after the points of the first phase
(`Continues`). So the second curve cannot be seen in them.

Results:
* `runSecond_observed`, `runSecond_primaryConvergedAt`: the second phase adds to the first and keeps its
  convergence.
* `run_withSecondary`: the run with a second curve continues the run without.
* `ofCurves_continues`: so it is for every configuration, valid or not.
-/
namespace Interleave

/-- `double` goes on where `single` has converged, and fails as `single` does. -/
structure Run.Continues (double single : Run) : Prop where
  failed : ∀ fault, single.result = .error fault → double = single
  observed : single.observed <+: double.observed
  points : ∀ t, single.result = .ok t → t.points <+: double.observed.map (·.point)
  converged : ∀ t t', single.result = .ok t → double.result = .ok t' →
    t'.primaryConvergedAt = t.primaryConvergedAt

namespace Simulator

variable {s : Simulator} {curve : Curve} {before : List Observation} {primaryAt budget : Nat}
  {state : ControlState}

/-! ## The second phase -/

/-- Whether it holds to the end or is cut, the second phase only adds points. -/
theorem runSecond_observed (s : Simulator) (curve : Curve) (before : List Observation)
    (primaryAt : Nat) (state : ControlState) (budget : Nat) :
    before <+: (s.runSecond curve before primaryAt state budget).observed := by
  unfold runSecond
  generalize min s.config.holdIterations budget = count
  dsimp only
  split
  · exact List.prefix_append before _
  · generalize climb s.controller curve .secondary _ _ _ = climbed
    obtain ⟨later, ending⟩ := climbed
    rw [List.append_assoc]
    cases ending <;> exact List.prefix_append before _

theorem runSecond_primaryConvergedAt {t : Trace}
    (h : (s.runSecond curve before primaryAt state budget).result = .ok t) :
    t.primaryConvergedAt = some primaryAt := by
  unfold runSecond at h
  dsimp only at h
  split at h
  · cases h
  · generalize climb s.controller curve .secondary _ _ _ = climbed at h
    obtain ⟨later, ending⟩ := climbed
    cases ending <;> cases h
    rfl

/-! ## Both runs -/

theorem run_withSecondary (hnone : s.secondary = none) (curve : Curve) :
    (s.withSecondary curve).run.Continues s.run := by
  have hfirst : (s.withSecondary curve).firstClimb = s.firstClimb := rfl
  rw [run_eq s, run_eq (s.withSecondary curve), hfirst, hnone]
  -- the climb of the first phase is one and the same, and its ending decides
  cases s.firstClimb.2 with
  | outOfPoints => exact ⟨fun _ _ => rfl, List.prefix_rfl, nofun, nofun⟩
  | failed fault => exact ⟨fun _ _ => rfl, List.prefix_rfl, nofun, nofun⟩
  | converged primaryAt state left =>
    have hobserved := (s.withSecondary curve).runSecond_observed curve (s.first :: s.firstClimb.1)
      primaryAt state left
    refine ⟨nofun, hobserved, ?_, ?_⟩
    · rintro t ⟨⟩
      exact hobserved.map _
    · rintro t t' ⟨⟩ hdouble
      exact runSecond_primaryConvergedAt hdouble

/-- A second curve changes nothing about the first phase, be it that the configuration is refused, that
the run fails, or that it goes on. -/
theorem ofCurves_continues (config : RunConfig) (primary secondary : Curve) :
    match ofCurves config primary none with
    | .error fault => ofCurves config primary (some secondary) = .error fault
    | .ok single => ∃ double, ofCurves config primary (some secondary) = .ok double ∧
        double.run.Continues single.run := by
  rw [ofCurves_some]
  cases h : ofCurves config primary none with
  | error fault => rfl
  | ok single => exact ⟨_, rfl, run_withSecondary (of_ofCurves h).2.2 secondary⟩

/-- A run that converges at once and would hold the ratio for one point. -/
def brief : Simulator where
  controller := ⟨{}, ControllerConfig.valid_default⟩
  config := { initialRatio := 50, initialBandwidth := 100.0, holdIterations := 1 }
  valid := by decide
  primary :=
    ⟨[⟨50, 100.0⟩, ⟨100, 100.0⟩], by decide, by simp [CurvePoint.Ascending], by decide, by decide⟩
  secondary := none

/-- A curve without a value where `brief` converges. -/
def distant : Curve :=
  ⟨[⟨60, 100.0⟩, ⟨100, 100.0⟩], by decide, by simp [CurvePoint.Ascending], by decide, by decide⟩

/-- With the second curve the run fails, but not before it has gone beyond the first phase. -/
theorem ofCurves_continues_distant :
    (brief.withSecondary distant).run.Continues brief.run ∧
      (brief.run.result.map (·.primaryConvergedAt) = .ok (some 1) ∧ brief.run.observed.length = 2) ∧
      (brief.withSecondary distant).run.result = .error (.ratioOutOfRange 50 60 100) ∧
      (brief.withSecondary distant).run.observed.length = 3 := by
  have h := ofCurves_continues brief.runConfig brief.primary distant
  have hself : ofCurves brief.runConfig brief.primary none = .ok brief := brief.ofCurves_self
  rw [ofCurves_some, hself] at h
  obtain ⟨double, hdouble, hcontinues⟩ := h
  cases hdouble
  exact ⟨hcontinues, by decide +kernel, by decide +kernel, by decide +kernel⟩

end Simulator

end Interleave
