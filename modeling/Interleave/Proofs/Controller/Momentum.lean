import Interleave.Proofs.Controller.Steps

/-!
# Momentum

A step is the momentum of the control law, and only a cold start gives it any. Of the other rules the
escape takes the size of the last step and drops its sign, an improvement keeps the step or damps it, and
a regression sends half of it back. What they propose is no larger than the last step and turned as the
rule says (`Eases`), and dropping a proposal or cutting it down leaves it so. This holds for every
pair of bandwidths, as it does not depend on what the damping is: a factor below 1 can neither
enlarge a step nor turn it, rounded or not (`dampedStep_between`).

Results:
* `Proposes.eases`, `Eases.limited`: what the rules propose, and what the limits leave of it.
* `Coasts.natAbs_le`: through all states without a cold start between them, the step never grows.
* `momentum_only_eases`: both, for every state and every observation.
-/
namespace Interleave

open Step

namespace ControllerConfig

/-- A step that goes on from the last one by a rule: no larger, onwards in an improvement, half and
backwards in a regression, and upwards in an escape. -/
structure Eases (last : Int) (rule : Rule) (step : Int) : Prop where
  le : step.natAbs ≤ last.natAbs
  improving : rule = .improving → step = 0 ∨ step.sign = last.sign
  regressing : rule = .regressing →
    (step = 0 ∨ step.sign = -last.sign) ∧ step.natAbs ≤ (last.natAbs + 1) / 2
  escape : rule = .lowBandwidthEscape → 0 ≤ step

variable {c : ControllerConfig} {prev next first last : ControlState} {observed : Float} {rule : Rule}
  {proposed step : Int} {d : Decision}

/-! ## Proposals -/

theorem sign_reversedStep (hword : InWord step) :
    c.reversedStep step = 0 ∨ (c.reversedStep step).sign = -step.sign := by
  rw [reversedStep_eq c hword]
  generalize c.rounding.quotient step.natAbs 2 = half
  rcases Nat.eq_zero_or_pos half with rfl | hpos
  · exact .inl (by simp)
  · right
    rw [Int.sign_neg, Int.sign_mul, Int.sign_sign, Int.sign_natCast_of_ne_zero hpos.ne', mul_one]

theorem quotient_two_le (mode : Rounding) (n : Nat) : mode.quotient n 2 ≤ (n + 1) / 2 := by
  unfold Rounding.quotient
  split <;> omega

/-- Between nothing and a step, a step has its sign. -/
theorem sign_of_between (h : 0 ≤ step ∧ step ≤ proposed ∨ proposed ≤ step ∧ step ≤ 0) :
    step = 0 ∨ step.sign = proposed.sign := by
  rcases lt_trichotomy step 0 with hdown | hnone | hup
  · right
    rw [Int.sign_eq_neg_one_of_neg hdown, Int.sign_eq_neg_one_of_neg (by omega)]
  · exact .inl hnone
  · right
    rw [Int.sign_eq_one_of_pos hup, Int.sign_eq_one_of_pos (by omega)]

/-- Whatever is observed, a rule that goes on from the last step eases it. -/
theorem Proposes.eases (h : c.Proposes prev observed rule proposed) (hword : InWord prev.step)
    (hwarm : rule ≠ .coldStart) : Eases prev.step rule proposed := by
  cases h with
  | escape =>
    refine ⟨?_, nofun, nofun, fun _ => magnitude_nonneg _⟩
    unfold magnitude maxValue
    omega
  | coldStart => exact absurd rfl hwarm
  | improving loss =>
    have hbetween := c.dampedStep_between hword loss
    exact ⟨by omega, fun _ => sign_of_between hbetween, nofun, nofun⟩
  | regressing _ hmoving =>
    have hhalf : (c.reversedStep prev.step).natAbs ≤ (prev.step.natAbs + 1) / 2 :=
      (natAbs_reversedStep hword hmoving).trans_le (quotient_two_le _ _)
    exact ⟨by omega, nofun, fun _ => ⟨sign_reversedStep hword, hhalf⟩, nofun⟩

/-! ## Limits -/

/-- A step that is dropped eases every step. -/
theorem Eases.zero (last : Int) (rule : Rule) : Eases last rule 0 :=
  ⟨Nat.zero_le _, fun _ => .inl rfl, fun _ => ⟨.inl rfl, Nat.zero_le _⟩, fun _ => le_rfl⟩

/-- What is kept of a step eases what the step eases. -/
theorem Eases.kept {last : Int} (h : Eases last rule proposed) (hkept : c.Kept proposed step) :
    Eases last rule step := by
  have hne : proposed ≠ 0 := by
    have hout := hkept.outside
    have hle := hkept.le
    omega
  refine ⟨hkept.le.trans h.le, ?_, ?_, ?_⟩
  · intro hrule
    rw [hkept.sign]
    exact .inr ((h.improving hrule).resolve_left hne)
  · intro hrule
    obtain ⟨hsign, hhalf⟩ := h.regressing hrule
    rw [hkept.sign]
    exact ⟨.inr (hsign.resolve_left hne), hkept.le.trans hhalf⟩
  · intro hrule
    have hnonneg := h.escape hrule
    have hneg := hkept.neg_iff
    omega

theorem Eases.limited {last : Int} (h : Eases last rule proposed) (hc : c.Valid)
    (hword : InWord proposed) : Eases last rule (c.limit proposed).step := by
  rcases c.limit_cases hc hword with h0 | hkept
  · rw [h0]
    exact .zero last rule
  · exact h.kept hkept

/-! ## Steps and runs -/

/-- One step of the law, unless it is a cold start. -/
theorem eases_of_advance (hc : c.Valid) (hword : InWord prev.step)
    (h : c.advance prev observed = .ok (next, d)) (hwarm : d.rule ≠ .coldStart) :
    Eases prev.step d.rule next.step := by
  obtain ⟨hproposes, rfl⟩ := advance_cases h
  exact (hproposes.eases hword hwarm).limited hc (hproposes.inWord hword)

/-- Only rest makes a cold start. -/
theorem Proposes.warm (h : c.Proposes prev observed rule proposed) (hmoving : prev.step ≠ 0) :
    rule ≠ .coldStart := by
  rintro rfl
  cases h with
  | coldStart loss _ hrest => exact hmoving hrest

/-- Observations lead from one state to the other without a cold start. -/
inductive Coasts (c : ControllerConfig) (first : ControlState) : ControlState → Prop
  | refl : Coasts c first first
  | advance {prev next : ControlState} {observed : Float} {d : Decision} : Coasts c first prev →
      c.advance prev observed = .ok (next, d) → d.rule ≠ .coldStart → Coasts c first next

/-- Without a cold start, the step never grows. -/
theorem Coasts.natAbs_le (hc : c.Valid) (hword : InWord first.step) (h : c.Coasts first last) :
    InWord last.step ∧ last.step.natAbs ≤ first.step.natAbs := by
  induction h with
  | refl => exact ⟨hword, le_rfl⟩
  | advance _ hadvance hwarm ih =>
    obtain ⟨hword', hle⟩ := ih
    obtain ⟨hproposes, hnext⟩ := advance_cases hadvance
    refine ⟨?_, (eases_of_advance hc hword' hadvance hwarm).le.trans hle⟩
    rw [hnext]
    exact inWord_limit hc (hproposes.inWord hword')

/-- From a step that is under way, no observation makes a cold start, and each eases the step as its rule
says. So, while there is no cold start, no number of observations enlarges a step. -/
theorem momentum_only_eases (hc : c.Valid) (hword : InWord prev.step) :
    (prev.step ≠ 0 → ∀ observed next d, c.advance prev observed = .ok (next, d) →
      d.rule ≠ .coldStart ∧ Eases prev.step d.rule next.step) ∧
    ∀ last, c.Coasts prev last → last.step.natAbs ≤ prev.step.natAbs := by
  refine ⟨?_, fun last h => (h.natAbs_le hc hword).2⟩
  intro hmoving observed next d h
  have hwarm := (advance_cases h).1.warm hmoving
  exact ⟨hwarm, eases_of_advance hc hword h hwarm⟩

/-- A regression keeps no more than half of three percent, rounded to the nearest, and the small improvement
that follows leaves nothing. -/
theorem momentum_only_eases_spent :
    let c : ControllerConfig := {}
    c.advance ⟨70, -3, 600.0⟩ 590.0 = .ok (⟨72, 2, 590.0⟩, ⟨.regressing, 2, false, false, false⟩) ∧
      Eases (-3) .regressing 2 ∧
      c.advance ⟨72, 2, 590.0⟩ 595.0 = .ok (⟨72, 0, 595.0⟩, ⟨.improving, 1, true, false, false⟩) ∧
      (0 : Int).natAbs ≤ (-3 : Int).natAbs := by
  intro c
  have hback : c.advance ⟨70, -3, 600.0⟩ 590.0 =
      .ok (⟨72, 2, 590.0⟩, ⟨.regressing, 2, false, false, false⟩) := by decide +kernel
  have hspent : c.advance ⟨72, 2, 590.0⟩ 595.0 =
      .ok (⟨72, 0, 595.0⟩, ⟨.improving, 1, true, false, false⟩) := by decide +kernel
  obtain ⟨hstep, hrun⟩ := @momentum_only_eases c ⟨70, -3, 600.0⟩ (by decide) (by decide)
  exact ⟨hback, (hstep (by decide) _ _ _ hback).2, hspent,
    hrun _ ((Coasts.refl.advance hback (by decide)).advance hspent (by decide))⟩

end ControllerConfig

end Interleave
