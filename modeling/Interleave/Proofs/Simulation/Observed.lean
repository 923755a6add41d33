import Interleave.Proofs.Simulation.Slew

/-!
# What every observation is

A run of any length and with any end observes points that are numbered, with bandwidths that are finite
and decisions whose proposals fit a word. It never observes more of them than its cap.

Results:
* `observed_finite`, `observed_rule`: the number, the bandwidth and the rule of an observation.
* `observed_proposed`: the proposals of decisions.
* `length_observed_le`: how many observations there are.
-/
namespace Interleave

namespace Simulator

variable {s : Simulator} {before here : Observation} {k : Nat}

theorem finite_initial (s : Simulator) : s.config.initialBandwidth.isFinite = true :=
  (SimulatorConfig.Valid.usable s.valid).1

theorem Link.finite (h : s.Link k before here) (hbefore : before.point.bandwidth.isFinite = true) :
    here.point.bandwidth.isFinite = true := by
  cases h with
  | stepped _ _ _ hstep => exact ControllerConfig.finite_of_advance (Controller.iterate_ok hstep).2
  | held => exact hbefore

theorem Link.proposed (h : s.Link k before here) (hword : Step.InWord before.point.step) :
    ∀ d ∈ here.decision, Step.InWord d.proposed := by
  cases h with
  | held => nofun
  | stepped _ _ hstate hstep =>
    rintro d ⟨⟩
    obtain ⟨hproposes, -⟩ := ControllerConfig.advance_cases (Controller.iterate_ok hstep).2
    apply hproposes.inWord
    rw [hstate]
    split
    · exact hword
    · exact ControllerConfig.inWord_zero

/-- Every observation bears its number and a finite bandwidth. -/
theorem observed_finite (hhere : s.run.observed[k]? = some here) :
    here.point.iteration = k ∧ here.point.bandwidth.isFinite = true := by
  apply s.run_induction (P := fun k o => o.point.iteration = k ∧ o.point.bandwidth.isFinite = true)
    ⟨rfl, s.finite_initial⟩ ?_ hhere
  rintro k before here ⟨-, hfinite⟩ hlink
  exact ⟨hlink.iteration, hlink.finite hfinite⟩

/-- A point names the rule of the decision that led to it. -/
theorem observed_rule (hhere : s.run.observed[k]? = some here) :
    here.point.rule = here.decision.map (·.rule) := by
  apply s.run_induction (P := fun _ o => o.point.rule = o.decision.map (·.rule)) rfl ?_ hhere
  rintro k before here - (_ | _) <;> rfl

theorem observed_proposed (hhere : s.run.observed[k]? = some here) :
    ∀ d ∈ here.decision, Step.InWord d.proposed := by
  cases k with
  | zero =>
    rw [run_head] at hhere
    cases hhere
    nofun
  | succ k =>
    obtain ⟨before, hbefore⟩ := exists_before hhere
    exact (run_link hbefore hhere).proposed (run_bounds hbefore).2

/-- A run observes no more points than its cap. -/
theorem length_observed_le (s : Simulator) : s.run.observed.length ≤ s.config.maxIterations := by
  rcases s.run_cases with ⟨observed, outcome, -, hroom, hrun⟩ | ⟨-, hlength⟩
  · rw [hrun]
    exact Nat.le_trans (length_le_room observed outcome) hroom
  · exact hlength.le

end Simulator

end Interleave
