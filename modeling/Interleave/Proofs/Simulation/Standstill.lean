import Interleave.Proofs.Controller.Rest
import Interleave.Proofs.Simulation.Observed

/-!
# What converges stands still

A phase has converged when an iteration repeats the ratio. The law itself knows no convergence: it asks
for the last step. The two agree but at the ends of the range, where a step may lead out and the ratio
stay (`Stands`). Where the step is 0 as well, the bandwidth that the state remembers is the one of the
curve at the very ratio that is held, so nothing is lost from there on, and every later iteration on that
curve leads to the same state again.

Results:
* `stands_of_same`: how an iteration can repeat the ratio.
* `follow_of_fixed`: an iteration that leads to its own state does so for ever.
* `converged_stands`: what every convergence of every run is, and what comes after it.
-/
namespace Interleave

/-- How a state stands still: it has no step, or one that leads out of the range at its end. -/
inductive Stands (state : ControlState) (d : Decision) : Prop
  | still : state.step = 0 → Stands state d
  | bottom : state.ratio = 0 → state.step < 0 → d.ratioClamped = true → Stands state d
  | top : state.ratio = maxRatio → 0 < state.step → d.ratioClamped = true → Stands state d

/-- A move that repeats the ratio is no move, or one that the range cuts off in whole. -/
theorem moveRatio_same {ratio : Nat} {step : Int} (h : (moveRatio ratio step).1 = ratio) :
    step = 0 ∨ ratio = 0 ∧ step < 0 ∧ (moveRatio ratio step).2 = true ∨
      ratio = maxRatio ∧ 0 < step ∧ (moveRatio ratio step).2 = true := by
  simp only [moveRatio, Bool.or_eq_true, decide_eq_true_eq] at h ⊢
  unfold maxRatio at *
  omega

/-- An iteration that repeats the ratio leads to a state that stands still. -/
theorem ControllerConfig.stands_of_same {c : ControllerConfig} {prev next : ControlState}
    {observed : Float} {d : Decision} (h : c.advance prev observed = .ok (next, d))
    (hsame : next.ratio = prev.ratio) : Stands next d := by
  obtain ⟨-, hnext⟩ := advance_cases h
  have hclamped : d.ratioClamped = (moveRatio prev.ratio (c.limit d.proposed).step).2 :=
    congrArg (·.2.ratioClamped) (advance_eq_apply h)
  rw [hnext] at hsame ⊢
  rcases moveRatio_same hsame with hstep | ⟨hratio, hstep, hout⟩ | ⟨hratio, hstep, hout⟩
  · exact .still hstep
  · exact .bottom (hsame.trans hratio) hstep (hclamped.trans hout)
  · exact .top (hsame.trans hratio) hstep (hclamped.trans hout)

/-! ## On and on -/

/-- The next states on a curve. -/
def Controller.follow (controller : Controller) (curve : Curve) :
    Nat → ControlState → Except ControlFault (List ControlState)
  | 0, _ => .ok []
  | n + 1, state => do
    let (next, _) ← controller.iterate curve state
    return next :: (← controller.follow curve n next)

section
variable {controller : Controller} {curve : Curve} {state : ControlState}

/-- An iteration that leads to its own state does so for ever. -/
theorem Controller.follow_of_fixed {d : Decision}
    (h : controller.iterate curve state = .ok (state, d)) (n : Nat) :
    controller.follow curve n state = .ok (List.replicate n state) := by
  induction n with
  | zero => rfl
  | succ n ih =>
    rw [follow, h]
    show (controller.follow curve n state >>= fun later => pure (state :: later)) = _
    rw [ih]
    rfl

/-- At rest, where the curve says what the state remembers, an iteration leads to its own state. -/
theorem Controller.iterate_at_rest (hget : curve.get state.ratio = .ok state.bandwidth)
    (hle : state.ratio ≤ maxRatio) (hrest : state.step = 0)
    (hfinite : state.bandwidth.isFinite = true) (hnonzero : (state.bandwidth == 0.0) = false) :
    ∃ d, controller.iterate curve state = .ok (state, d) := by
  obtain ⟨d, hadvance⟩ := controller.config.advance_at_rest hle hrest hfinite hnonzero
  refine ⟨d, ?_⟩
  rw [iterate, hget]
  exact hadvance

end

/-! ## Convergences -/

namespace Simulator

variable {s : Simulator} {k : Nat}

/-- A convergence is a point of the run, and not the first one. -/
theorem bounds_of_mem_convergences (h : k ∈ s.convergences) :
    0 < k ∧ k < s.run.observed.length := by
  obtain ⟨primaryAt, state, left, hend, hk⟩ := mem_convergences_iff.1 h
  obtain ⟨hfirst, rfl⟩ := climbs_first hend
  obtain ⟨before, decision, hlast⟩ := hfirst.exists_last
  have hpos : 0 < s.firstClimb.1.length := by simp [hlast]
  rcases hk with rfl | ⟨curve, final, left', hsome, hhold, hconverged⟩
  · refine ⟨hpos, ?_⟩
    rcases s.observed_cases with hrun | ⟨curve', at', state', left', -, -, ⟨-, hrun⟩ | ⟨-, hrun⟩⟩
    · simp [hrun]
    · rw [hrun, List.length_take, length_beforeSwitch]
      omega
    · rw [hrun, List.length_append, length_beforeSwitch]
      omega
  · obtain ⟨-, hat, -⟩ := climbs_of_converged hconverged
    have hle := le_secondaryAt hconverged
    have hlen := s.length_beforeSwitch s.firstClimb.1 state
    rw [observed_of_le hsome hend hhold, List.length_append]
    unfold secondClimb
    omega

/-- What a convergence is: an iteration that repeats the ratio, and so observes the curve at the very
ratio that its state holds. -/
theorem exists_iteration (h : k ∈ s.convergences) :
    ∃ o d curve prev, s.run.observed[k]? = some o ∧ o.decision = some d ∧
      s.curveOf o.point.phase = some curve ∧
      s.controller.iterate curve prev = .ok (o.point.state, d) ∧ o.point.ratio = prev.ratio := by
  obtain ⟨hpos, hlt⟩ := bounds_of_mem_convergences h
  obtain ⟨j, rfl⟩ := Nat.exists_eq_succ_of_ne_zero hpos.ne'
  have hhere := List.getElem?_eq_getElem hlt
  obtain ⟨before, hbefore⟩ := exists_before hhere
  generalize s.run.observed[j + 1] = here at hhere
  cases run_link hbefore hhere with
  | @stepped phase curve state next decision hcurve _ hstate hstep hsame =>
    refine ⟨_, decision, curve, state, hhere, rfl, hcurve, hstep, ?_⟩
    have hratio : state.ratio = before.point.ratio := by
      rw [hstate]
      split <;> rfl
    exact (hsame.2 h).trans hratio.symm
  | held _ hquiet => exact absurd h hquiet

/-- Wherever a run converges, its state stands still. If it has no step, and remembers a bandwidth other
than 0, then the controller stays in that very state on the curve of the phase, for ever. -/
theorem converged_stands (s : Simulator) {k : Nat} (h : k ∈ s.convergences) :
    ∃ o d curve, s.run.observed[k]? = some o ∧ o.decision = some d ∧
      s.curveOf o.point.phase = some curve ∧ Stands o.point.state d ∧
      (o.point.step = 0 → (o.point.bandwidth == 0.0) = false → ∀ n,
        s.controller.follow curve n o.point.state = .ok (List.replicate n o.point.state)) := by
  obtain ⟨o, d, curve, prev, hhere, hdecision, hcurve, hstep, hratio⟩ := exists_iteration h
  obtain ⟨hget, hadvance⟩ := Controller.iterate_ok hstep
  refine ⟨o, d, curve, hhere, hdecision, hcurve,
    ControllerConfig.stands_of_same hadvance hratio, ?_⟩
  intro (hrest : o.point.state.step = 0) hnonzero n
  rw [← hratio] at hget
  obtain ⟨d', hfixed⟩ := Controller.iterate_at_rest hget (run_bounds hhere).1 hrest
    (observed_finite hhere).2 hnonzero
  exact Controller.follow_of_fixed hfixed n

/-- The first phase of `rising` ends at the top of the range, with a step that leads out of it. The
second one ends at rest, and nothing moves the controller from there. -/
theorem converged_stands_rising :
    rising.convergences = [1, 5] ∧ (∃ d, Stands ⟨100, 8, 400.0⟩ d) ∧
      ∃ curve, rising.secondary = some curve ∧ ∀ n,
        rising.controller.follow curve n ⟨96, 0, 496.0⟩ = .ok (List.replicate n ⟨96, 0, 496.0⟩) := by
  have hconvergences : rising.convergences = [1, 5] := convergences_of_ok rising_run
  have hpoint {k : Nat} {o : Observation} (h : rising.run.observed[k]? = some o) :
      risingTrace.points[k]? = some o.point := by
    rw [(course_of_ok rising_run).points_eq, List.getElem?_map, h]
    rfl
  obtain ⟨o, d, -, hfirst, -, -, hclamped, -⟩ :=
    converged_stands rising (k := 1) (by simp [hconvergences])
  obtain ⟨o', -, curve, hsecond, -, hcurve, -, hforever⟩ :=
    converged_stands rising (k := 5) (by simp [hconvergences])
  have hfirst : ⟨1, .primary, 100, 8, 400.0, some .coldStart⟩ = o.point :=
    Option.some.inj (hpoint hfirst)
  have hsecond : ⟨5, .secondary, 96, 0, 496.0, some .improving⟩ = o'.point :=
    Option.some.inj (hpoint hsecond)
  rw [← hfirst] at hclamped
  rw [← hsecond] at hcurve hforever
  exact ⟨hconvergences, ⟨d, hclamped⟩, curve, hcurve, hforever rfl (by decide +kernel)⟩

end Simulator

end Interleave
