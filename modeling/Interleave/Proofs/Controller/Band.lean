import Interleave.Proofs.Controller.Steps

/-!
# The step band

A configuration allows a controller no step at all, or one whose size lies between the dead zone and the
step limit (`InBand`). The limits leave every proposal of the law in this band but one: the size that
they compare is held in a word, where the most negative step is taken for one less than it is. Under
the largest step limit there is, that step passes for one of the size of the limit, and is not cut.

Results:
* `limit_in_band_iff`: what the limits leave of a proposal lies in the band, with that one exception.
* `step_in_band_iff`: so does the step of every new state, from every state and on every observation.
* `largest_limit_passed`: a cold start with the largest step limit leaves the band.
-/
namespace Interleave

open Step

namespace ControllerConfig

/-- No step, or one of a size between the dead zone and the step limit. -/
def InBand (c : ControllerConfig) (step : Int) : Prop :=
  step = 0 ∨ c.minStep ≤ step.natAbs ∧ (step.natAbs : Int) ≤ c.maxStep

instance (c : ControllerConfig) (step : Int) : Decidable (c.InBand step) :=
  inferInstanceAs (Decidable (_ ∨ _))

variable {c : ControllerConfig} {prev next : ControlState} {observed : Float} {proposed : Int}

/-- The most negative step is larger than every limit that a word can hold. -/
theorem not_inBand_minValue (h : c.maxStep = maxValue) : ¬c.InBand minValue := by
  unfold InBand minValue maxValue at *
  omega

/-- A proposal that is cut is as large as the limit. -/
theorem inBand_cut (hc : c.Valid) (h : proposed ≠ 0) : c.InBand (c.maxStep * proposed.sign) := by
  obtain ⟨hmin, hmax, hle⟩ := hc.le
  right
  rw [c.natAbs_cut h]
  omega

/-- Under the largest step limit, the most negative proposal is left as it is. -/
theorem limit_minValue (hc : c.Valid) (h : c.maxStep = maxValue) :
    (c.limit minValue).step = minValue := by
  have hsize : magnitude minValue = maxValue := rfl
  have hle := hc.le.2.2
  unfold limit
  rw [hsize, if_neg (by omega), if_neg (by omega)]

/-- The limits leave a proposal in the band, unless it is the most negative step and the step limit is
the size that this step is taken for. -/
theorem limit_in_band_iff (hc : c.Valid) (hword : InWord proposed) :
    c.InBand (c.limit proposed).step ↔ ¬(c.maxStep = maxValue ∧ proposed = minValue) := by
  by_cases hpasses : c.maxStep = maxValue ∧ proposed = minValue
  · obtain ⟨hlimit, rfl⟩ := hpasses
    rw [limit_minValue hc hlimit]
    exact iff_of_false (not_inBand_minValue hlimit) fun h => h ⟨hlimit, rfl⟩
  · refine iff_of_true ?_ hpasses
    have hlimits := c.limits hc proposed
    generalize c.limit proposed = limited at hlimits
    cases hlimits with
    | nothing => exact .inl rfl
    | dropped => exact .inl rfl
    | cut hne => exact inBand_cut hc hne
    | left _ hdead hfits =>
      right
      unfold InWord magnitude minValue maxValue at *
      dsimp only
      omega

/-- Every new state has a ratio in its range, remembers the observation, and has a step in the band;
but under the largest step limit there is, the most negative step is not cut. -/
theorem step_in_band_iff (hc : c.Valid) (hword : InWord prev.step)
    (h : c.adjust prev observed = .ok next) :
    next.ratio ≤ maxRatio ∧ next.bandwidth = observed ∧
      (c.InBand next.step ↔ ¬(c.maxStep = maxValue ∧ next.step = minValue)) := by
  obtain ⟨d, hadvance⟩ := exists_advance h
  obtain ⟨hproposes, hnext⟩ := advance_cases hadvance
  refine ⟨advance_ratio_le hadvance, advance_bandwidth hadvance, ?_⟩
  constructor
  · intro hband hpasses
    rw [hpasses.2] at hband
    exact not_inBand_minValue hpasses.1 hband
  · intro hcut
    by_contra hband
    have hpasses : c.maxStep = maxValue ∧ d.proposed = minValue := by
      rw [hnext, limit_in_band_iff hc (hproposes.inWord hword)] at hband
      exact not_not.1 hband
    refine hcut ⟨hpasses.1, ?_⟩
    rw [hnext, hpasses.2]
    exact limit_minValue hc hpasses.1

/-- The largest step limit there is. -/
def unlimited : ControllerConfig := { maxStep := maxValue }

/-- The escape from the most negative step takes it for a step of the size of the limit, and leads to a
step in the band. -/
theorem step_in_band_iff_escape :
    unlimited.adjust ⟨40, minValue, 500.0⟩ 100.0 = .ok ⟨100, maxValue, 100.0⟩ ∧
      unlimited.InBand maxValue := by
  have hadjust : unlimited.adjust ⟨40, minValue, 500.0⟩ 100.0 = .ok ⟨100, maxValue, 100.0⟩ := by
    decide +kernel
  obtain ⟨-, -, hband⟩ := step_in_band_iff (by decide) (by decide) hadjust
  exact ⟨hadjust, hband.2 (by decide)⟩

/-- A million millions after a bandwidth of 1 are a loss far below the word. The cold start proposes
the most negative step, and the step limit does not cut it. -/
theorem largest_limit_passed :
    unlimited.Valid ∧ InWord unlimited.maxStep ∧
      unlimited.adjust ⟨100, 0, 1.0⟩ 1e12 = .ok ⟨0, minValue, 1e12⟩ ∧
      ¬unlimited.InBand minValue := by
  decide +kernel

end ControllerConfig

end Interleave
