import Interleave.Proofs.Controller.Steps

/-!
# Decisions account for their moves

A decision keeps the proposal of the rule and three flags, and no more is needed to tell the move from it:
with the step limit and the ratio before, it gives the new step and the new ratio (`Decision.move`). The
flags say which correction was made. A proposal is dropped or cut, never both, and what it became
shows which (`AccountsForStep`); the flag of the ratio says whether the sum of ratio and step is out of
range (`AccountsForRatio`). The ratio is then the bound that the sum has passed. From within the range
that is the one on the side of the step; but a state may hold a ratio above 100, and such a ratio is cut
down to 100 even if the step is nothing or leads down.

Results:
* `accounts_of_advance`: the decision of every step accounts for its step and its ratio.
* `AccountsForStep.move_eq`: such a decision tells the move.
-/
namespace Interleave

namespace Decision

/-- The step that a decision tells of, under a step limit. -/
def step (d : Decision) (maxStep : Int) : Int :=
  if d.deadZone then 0 else if d.saturated then maxStep * d.proposed.sign else d.proposed

/-- The ratio and the step that a decision tells of, under a step limit and from the ratio before. -/
def move (d : Decision) (maxStep : Int) (ratio : Nat) : Nat × Int :=
  let target : Int := ratio + d.step maxStep
  (if d.ratioClamped then if target < 0 then 0 else maxRatio else target.toNat, d.step maxStep)

/-- The flags of a decision say what became of the proposal. -/
structure AccountsForStep (d : Decision) (maxStep step : Int) : Prop where
  not_both : ¬(d.deadZone = true ∧ d.saturated = true)
  dropped : d.deadZone = true ↔ d.proposed ≠ 0 ∧ step = 0
  cut : d.saturated = true ↔ step ≠ 0 ∧ step ≠ d.proposed
  of_cut : d.saturated = true → step = maxStep * d.proposed.sign
  of_neither : d.deadZone = false → d.saturated = false → step = d.proposed

/-- A decision says whether the sum of the ratio before and the step is out of range. If it is, the new
ratio is the bound that it has passed, and otherwise it is the sum. -/
structure AccountsForRatio (d : Decision) (ratio : Nat) (next : ControlState) : Prop where
  clamped : d.ratioClamped = true ↔ (ratio : Int) + next.step ∉ Set.Icc 0 (maxRatio : Int)
  of_clamped : d.ratioClamped = true → (ratio : Int) + next.step < 0 ∧ next.ratio = 0 ∨
    (maxRatio : Int) < ratio + next.step ∧ next.ratio = maxRatio
  of_inside : d.ratioClamped = false → (next.ratio : Int) = ratio + next.step

variable {d : Decision} {maxStep : Int} {ratio : Nat} {next : ControlState}

theorem AccountsForStep.step_eq (h : d.AccountsForStep maxStep next.step) :
    d.step maxStep = next.step := by
  unfold step
  split
  · rename_i hdropped
    exact (h.dropped.1 hdropped).2.symm
  · rename_i hleft
    split
    · rename_i hcut
      exact (h.of_cut hcut).symm
    · rename_i huncut
      exact (h.of_neither (Bool.eq_false_iff.2 hleft) (Bool.eq_false_iff.2 huncut)).symm

/-- A decision that accounts for the step and for the ratio tells the move. -/
theorem AccountsForStep.move_eq (hstep : d.AccountsForStep maxStep next.step)
    (hratio : d.AccountsForRatio ratio next) : d.move maxStep ratio = (next.ratio, next.step) := by
  unfold move
  rw [hstep.step_eq]
  refine Prod.ext ?_ rfl
  cases hclamped : d.ratioClamped with
  | true =>
    have hbound := hratio.of_clamped hclamped
    dsimp only
    rw [if_pos rfl]
    split <;> omega
  | false =>
    have hsum := hratio.of_inside hclamped
    dsimp only
    rw [if_neg nofun]
    omega

/-- From within the range, the bound is the one on the side of the step. -/
theorem AccountsForRatio.side (h : d.AccountsForRatio ratio next) (hle : ratio ≤ maxRatio)
    (hclamped : d.ratioClamped = true) :
    next.step < 0 ∧ next.ratio = 0 ∨ 0 < next.step ∧ next.ratio = maxRatio := by
  have hbound := h.of_clamped hclamped
  omega

end Decision

namespace ControllerConfig

open Decision

variable {c : ControllerConfig} {prev next : ControlState} {observed : Float} {d : Decision}

theorem accountsForStep_apply (hc : c.Valid) (prev : ControlState) (observed : Float) (rule : Rule)
    (proposed : Int) : (c.apply prev observed rule proposed).2.AccountsForStep c.maxStep
      (c.apply prev observed rule proposed).1.step := by
  have hmax := hc.le.2.1
  have hlimits := c.limits hc proposed
  unfold apply
  generalize c.limit proposed = limited at hlimits
  cases hlimits with
  | nothing hnone => exact ⟨by simp, by simp [hnone], by simp, nofun, fun _ _ => hnone.symm⟩
  | dropped hne => exact ⟨by simp, by simp [hne], by simp, nofun, nofun⟩
  | cut hne _ hlarge =>
    have hsize := c.natAbs_cut hne
    have hstep : c.maxStep * proposed.sign ≠ 0 := by omega
    have hcut : c.maxStep * proposed.sign ≠ proposed := by
      intro heq
      rw [heq] at hsize
      unfold Step.magnitude at hlarge
      omega
    exact ⟨by simp, by simp [hstep], by simp [hstep, hcut], fun _ => rfl, nofun⟩
  | left hne => exact ⟨by simp, by simp [hne], by simp, nofun, fun _ _ => rfl⟩

theorem accountsForRatio_apply (c : ControllerConfig) (prev : ControlState) (observed : Float)
    (rule : Rule) (proposed : Int) : (c.apply prev observed rule proposed).2.AccountsForRatio prev.ratio
      (c.apply prev observed rule proposed).1 := by
  unfold apply
  generalize c.limit proposed = limited
  refine ⟨?_, ?_, ?_⟩ <;> simp only [moveRatio, Set.mem_Icc, Bool.or_eq_true, Bool.or_eq_false_iff,
    decide_eq_true_eq, decide_eq_false_iff_not] <;> omega

/-- The decision of every step accounts for the step and for the ratio. -/
theorem accounts_of_advance (hc : c.Valid) (h : c.advance prev observed = .ok (next, d)) :
    d.AccountsForStep c.maxStep next.step ∧ d.AccountsForRatio prev.ratio next := by
  have hstep := accountsForStep_apply hc prev observed d.rule d.proposed
  have hratio := accountsForRatio_apply c prev observed d.rule d.proposed
  rw [← advance_eq_apply h] at hstep hratio
  exact ⟨hstep, hratio⟩

/-- So it tells the move. -/
theorem move_of_advance (hc : c.Valid) (h : c.advance prev observed = .ok (next, d)) :
    d.move c.maxStep prev.ratio = (next.ratio, next.step) := by
  obtain ⟨hstep, hratio⟩ := accounts_of_advance hc h
  exact hstep.move_eq hratio

end ControllerConfig

end Interleave
