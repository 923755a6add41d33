import Interleave.Proofs.Controller.Rest

/-!
# Leaving rest

A controller at rest stays there as long as the bandwidth stays. Another bandwidth does not move it by
a little: the escape repeats a step that is none, and a cold start proposes nothing or a step of at least
two dead zones. Such a step is not dropped, and if it is cut, then to the step limit, so the first step
out of rest is at least as large as the lesser of the two (`limit_decisive`). The doubling of the dead zone
stops at the largest step there is, which is beyond no step limit.

Results:
* `observes_same`: any number of observations of the bandwidth at rest lead back to the same state.
* `exists_adjust_at_rest`: no finite observation is refused.
* `rest_left_decisively`: both, and how large the first step is.
-/
namespace Interleave

open Step

namespace ControllerConfig

variable {c : ControllerConfig} {prev rest : ControlState} {observed : Float} {rule : Rule}
  {proposed : Int}

/-! ## Staying -/

/-- From rest, the same bandwidth leads to the same state, as often as it is observed. -/
theorem observes_same (c : ControllerConfig) (hle : rest.ratio ≤ maxRatio) (hrest : rest.step = 0)
    (hfinite : rest.bandwidth.isFinite = true) (hnonzero : (rest.bandwidth == 0.0) = false) (n : Nat) :
    (List.replicate n rest.bandwidth).foldlM c.adjust rest = .ok rest := by
  obtain ⟨d, hadvance⟩ := c.advance_at_rest hle hrest hfinite hnonzero
  have hadjust : c.adjust rest rest.bandwidth = .ok rest := by
    rw [adjust, hadvance]
    rfl
  induction n with
  | zero => rfl
  | succ n ih =>
    rw [List.replicate_succ, List.foldlM_cons, hadjust]
    exact ih

/-! ## Leaving -/

/-- A step that two dead zones do not swallow: its size, as far as a word can tell it. -/
def Decisive (c : ControllerConfig) (step : Int) : Prop := saturate (2 * c.minStep) ≤ magnitude step

/-- From rest, a rule proposes nothing or a decisive step. -/
theorem Proposes.at_rest (h : c.Proposes prev observed rule proposed) (hrest : prev.step = 0) :
    proposed = 0 ∨ c.Decisive proposed := by
  cases h with
  | escape =>
    rw [hrest]
    exact .inl rfl
  | coldStart loss =>
    unfold coldStep
    dsimp only
    split
    · exact .inl rfl
    · rename_i hlarge
      exact .inr (not_lt.1 hlarge)
  | improving loss _ hmoving => exact absurd hrest hmoving
  | regressing _ hmoving => exact absurd hrest hmoving

/-- The limits do not drop a decisive step, and leave two dead zones of it or as much as the step limit
allows. -/
theorem limit_decisive (hc : c.Valid) (hword : InWord c.maxStep) (hne : proposed ≠ 0)
    (h : c.Decisive proposed) : (c.limit proposed).step ≠ 0 ∧
      min (2 * c.minStep) c.maxStep ≤ (c.limit proposed).step.natAbs := by
  have hlimits := c.limits hc proposed
  obtain ⟨hmin, hmax, hle⟩ := hc.le
  unfold Decisive saturate at h
  unfold InWord at hword
  generalize c.limit proposed = limited at hlimits
  cases hlimits with
  | nothing hnone => exact absurd hnone hne
  | dropped _ hdead =>
    unfold minValue at h
    omega
  | cut =>
    have hsize := c.natAbs_cut hne
    dsimp only
    omega
  | left =>
    unfold magnitude minValue at h
    dsimp only
    omega

/-- At rest after a bandwidth that can be divided by, no finite observation is refused. -/
theorem exists_adjust_at_rest (hrest : rest.step = 0) (hfinite : rest.bandwidth.isFinite = true)
    (hnonzero : (rest.bandwidth == 0.0) = false) (hobserved : observed.isFinite = true) :
    ∃ next d, c.advance rest observed = .ok (next, d) := by
  cases hadvance : c.advance rest observed with
  | ok step => exact ⟨step.1, step.2, rfl⟩
  | error fault =>
    cases advance_eq_error_iff.1 hadvance with
    | observed hinfinite => exact absurd hobserved (Bool.eq_false_iff.1 hinfinite)
    | before _ hinfinite => exact absurd hfinite (Bool.eq_false_iff.1 hinfinite)
    | coldStart _ _ _ _ hzero => exact absurd hzero (Bool.eq_false_iff.1 hnonzero)
    | damping _ _ _ hmoving => exact absurd hrest hmoving

/-- A controller at rest, after a finite bandwidth other than 0, stays in its state for as long as that
bandwidth is observed, whatever the configuration is. With one that is valid, every finite observation
either leaves it at rest at its ratio, or makes a step of at least two dead zones or the step limit. -/
theorem rest_left_decisively (c : ControllerConfig) (hle : rest.ratio ≤ maxRatio) (hrest : rest.step = 0)
    (hfinite : rest.bandwidth.isFinite = true) (hnonzero : (rest.bandwidth == 0.0) = false) :
    (∀ n, (List.replicate n rest.bandwidth).foldlM c.adjust rest = .ok rest) ∧
    (c.Valid → InWord c.maxStep → ∀ observed, observed.isFinite = true →
      ∃ next, c.adjust rest observed = .ok next ∧
        (next.step = 0 ∧ next.ratio = rest.ratio ∨
          next.step ≠ 0 ∧ min (2 * c.minStep) c.maxStep ≤ next.step.natAbs)) := by
  refine ⟨c.observes_same hle hrest hfinite hnonzero, ?_⟩
  intro hc hword observed hobserved
  obtain ⟨next, d, hadvance⟩ := exists_adjust_at_rest (c := c) hrest hfinite hnonzero hobserved
  refine ⟨next, by rw [adjust, hadvance]; rfl, ?_⟩
  obtain ⟨hproposes, rfl⟩ := advance_cases hadvance
  by_cases hnone : d.proposed = 0
  · left
    rw [hnone, limit_zero, moveRatio_up le_rfl]
    exact ⟨rfl, min_eq_left hle⟩
  · exact .inr (limit_decisive hc hword hnone ((hproposes.at_rest hrest).resolve_left hnone))

/-- A dead zone of more than half of the step limit. -/
def wide : ControllerConfig := { minStep := 5 }

/-- A loss that is worth 12 percent is more than two dead zones, and is cut to the step limit of 8. One
that is worth 6 percent is not, though it is more than one dead zone. -/
theorem rest_left_decisively_wide :
    (List.replicate 10 600.0).foldlM wide.adjust ⟨70, 0, 600.0⟩ = .ok ⟨70, 0, 600.0⟩ ∧
      wide.Valid ∧ InWord wide.maxStep ∧ wide.adjust ⟨70, 0, 600.0⟩ 500.0 = .ok ⟨78, 8, 500.0⟩ ∧
      min (2 * wide.minStep) wide.maxStep ≤ (8 : Int).natAbs ∧
      wide.adjust ⟨70, 0, 600.0⟩ 550.0 = .ok ⟨70, 0, 550.0⟩ := by
  have hmoved : wide.adjust ⟨70, 0, 600.0⟩ 500.0 = .ok ⟨78, 8, 500.0⟩ := by decide +kernel
  obtain ⟨hstays, hleaves⟩ := @rest_left_decisively ⟨70, 0, 600.0⟩ wide (by decide) rfl (by decide)
    (by decide +kernel)
  obtain ⟨next, hnext, hdecisive⟩ := hleaves (by decide) (by decide) 500.0 (by decide)
  rw [hmoved] at hnext
  cases hnext
  exact ⟨hstays 10, by decide, by decide, hmoved, (hdecisive.resolve_left (by decide)).2,
    by decide +kernel⟩

end ControllerConfig

end Interleave
