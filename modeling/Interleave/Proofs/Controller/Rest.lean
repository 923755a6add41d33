import Interleave.Proofs.Controller.Steps
import Interleave.Proofs.Number.Bounds

/-!
# Rest

A controller rests when its last step was 0. The escape repeats that step and stays where it is, and two
of the rules are for a controller on the move, so only a cold start ends a rest. Its step is the ratio
times the loss. At ratio 0 a rest lasts for ever, whatever is observed (`adjust_at_zero`). At every other
ratio a bandwidth that is large enough ends it: the loss may lie beyond the floats, as its step is cut
to the word and then to the step limit (`adjust_largest`). A bandwidth that stays as it is ends no rest.

Results:
* `advance_at_rest`: from rest, the same bandwidth again leads to the same state again.
* `stateAfter_at_zero`: through all observations, rest at ratio 0 stays rest at ratio 0.
* `recovers_iff`: a controller at rest can recover from every ratio but 0.
* `rest_at_zero_lasts`: a rest that no later workload can leave.
-/
namespace Interleave

open Number Float.Model

/-! ## Steps out of the word -/

theorem Rounding.toInt_le_of_atMost (mode : Rounding) {bottom top : Int} {x : Float} {n : Nat}
    (hbottom : bottom ≤ -n) (h : AtMost x (-n)) : mode.toInt bottom top x ≤ -n := by
  rcases h with ⟨hx, hle⟩ | hinf
  · have hsize : n ≤ ⌊|value x| + mode.half⌋₊ := by
      rw [← mode.floor_add_half n]
      exact Nat.floor_mono (by linarith [neg_abs_le (value x)])
    rw [mode.toInt_of_nonpos bottom top hx (hle.trans (by simp))]
    omega
  · rw [toInt, hinf]
    exact hbottom

/-- What is below the word is cut to the most negative step. -/
theorem Step.ofFloat_of_atMost (mode : Rounding) {x : Float} (h : AtMost x minValue) :
    ofFloat mode x = minValue := by
  have hle : mode.toInt minValue maxValue x ≤ -(2 ^ 31 : Nat) :=
    mode.toInt_le_of_atMost le_rfl (by simpa [minValue] using h)
  unfold ofFloat saturate
  unfold minValue maxValue at *
  omega

theorem mul_zero_cases (u : UnpackedFloat) :
    UnpackedFloat.mul .binary64 (.zero .positive) u = .notANumber ∨
      ∃ s, UnpackedFloat.mul .binary64 (.zero .positive) u = .zero s := by
  cases u <;> simp [UnpackedFloat.mul]

/-- Nothing times a number is no step, be the number infinite or NaN. -/
theorem Step.ofFloat_zero_mul (mode : Rounding) (x : Float) :
    ofFloat mode (Float.ofNat 0 * x) = 0 := by
  have hmul : (Float.ofNat 0 * x).toModel.unpack =
      (pack (UnpackedFloat.mul .binary64 (.zero .positive) x.toModel.unpack)).unpack := rfl
  unfold ofFloat Rounding.toInt
  rw [hmul]
  rcases mul_zero_cases x.toModel.unpack with h | ⟨s, h⟩
  · rw [h, unpack_pack (by trivial)]
    rfl
  · rw [h, unpack_pack (by trivial)]
    rfl

namespace ControllerConfig

variable {c : ControllerConfig} {prev next : ControlState} {observed : Float} {rule : Rule}
  {proposed : Int}

/-! ## Rest at 0 -/

theorem coldStep_at_zero (c : ControllerConfig) (loss : Float) : c.coldStep 0 loss = 0 := by
  unfold coldStep
  rw [Step.ofFloat_zero_mul]
  exact ite_self 0

theorem limit_zero (c : ControllerConfig) : (c.limit 0).step = 0 := by
  unfold limit
  split
  · rfl
  · split
    · exact mul_zero _
    · rfl

theorem Proposes.at_zero (h : c.Proposes prev observed rule proposed) (hratio : prev.ratio = 0)
    (hrest : prev.step = 0) : proposed = 0 := by
  cases h with
  | escape => rw [hrest]; rfl
  | coldStart loss => rw [hratio, coldStep_at_zero]
  | improving loss _ hmoving => exact absurd hrest hmoving
  | regressing _ hmoving => exact absurd hrest hmoving

/-- One step of the law from rest at ratio 0. -/
theorem adjust_at_zero (hratio : prev.ratio = 0) (hrest : prev.step = 0)
    (h : c.adjust prev observed = .ok next) : next.ratio = 0 ∧ next.step = 0 := by
  obtain ⟨d, hadvance⟩ := exists_advance h
  obtain ⟨hproposes, hnext⟩ := advance_cases hadvance
  rw [hproposes.at_zero hratio hrest, limit_zero, hratio] at hnext
  rw [hnext]
  exact ⟨rfl, rfl⟩

/-- The state after some observations. One that the law refuses leaves the state as it is. -/
def stateAfter (c : ControllerConfig) (state : ControlState) (observations : List Float) :
    ControlState :=
  observations.foldl (fun state observed => (c.adjust state observed).toOption.getD state) state

theorem stateAfter_cons (c : ControllerConfig) (state : ControlState) (observed : Float)
    (observations : List Float) : c.stateAfter state (observed :: observations) =
      c.stateAfter ((c.adjust state observed).toOption.getD state) observations :=
  rfl

theorem stateAfter_at_zero {state : ControlState} (hratio : state.ratio = 0) (hrest : state.step = 0)
    (observations : List Float) :
    (c.stateAfter state observations).ratio = 0 ∧ (c.stateAfter state observations).step = 0 := by
  induction observations generalizing state with
  | nil => exact ⟨hratio, hrest⟩
  | cons observed observations ih =>
    rw [stateAfter_cons]
    cases hadjust : c.adjust state observed with
    | error fault => exact ih hratio hrest
    | ok next =>
      obtain ⟨hratio', hrest'⟩ := adjust_at_zero hratio hrest hadjust
      exact ih hratio' hrest'

/-! ## Rest elsewhere -/

/-- No loss is no step. -/
theorem coldStep_of_zero (c : ControllerConfig) {ratio : Nat} {loss : Float} (hle : ratio ≤ maxRatio)
    (hfinite : loss.isFinite = true) (hzero : value loss = 0) : c.coldStep ratio loss = 0 := by
  obtain ⟨hratio, -⟩ := value_ofNat (n := ratio) (by unfold maxRatio at hle; omega)
  obtain ⟨hfin, hvalue⟩ := (rounds_mul hratio hfinite).value_eq hfinite (by rw [hzero, mul_zero])
  have hnone : c.rounding.toInt Step.minValue Step.maxValue (Float.ofNat ratio * loss) = 0 := by
    rw [hzero, mul_zero] at hvalue
    rw [c.rounding.toInt_of_nonneg _ _ hfin hvalue.ge, hvalue, abs_zero, ← Nat.cast_zero,
      c.rounding.floor_add_half]
    rfl
  unfold coldStep Step.ofFloat
  rw [hnone]
  exact ite_self 0

/-- From rest, the same bandwidth again leads to the same state again. -/
theorem advance_at_rest (c : ControllerConfig) {rest : ControlState} (hle : rest.ratio ≤ maxRatio)
    (hrest : rest.step = 0) (hfinite : rest.bandwidth.isFinite = true)
    (hnonzero : (rest.bandwidth == 0.0) = false) :
    ∃ d, c.advance rest rest.bandwidth = .ok (rest, d) := by
  have hstays (rule : Rule) : (c.apply rest rest.bandwidth rule 0).1 = rest := by
    show (⟨(moveRatio rest.ratio (c.limit 0).step).1, (c.limit 0).step, rest.bandwidth⟩ :
      ControlState) = rest
    rw [limit_zero, moveRatio_up le_rfl, Int.natAbs_zero, Nat.add_zero, min_eq_left hle, ← hrest]
  by_cases hlow : rest.bandwidth < c.lowBandwidthThreshold
  · have hadvance : c.advance rest rest.bandwidth =
        .ok (c.apply rest rest.bandwidth .lowBandwidthEscape 0) := by
      unfold advance propose
      simp [hfinite, hlow, hrest, Except.map, Step.magnitude, Step.maxValue]
    exact ⟨_, hadvance.trans (congrArg Except.ok (Prod.ext (hstays _) rfl))⟩
  · have hvalue : value rest.bandwidth ≠ 0 := by
      intro hzero
      rw [Bool.eq_false_iff, Ne, beq_iff_value_eq hfinite rfl] at hnonzero
      exact hnonzero hzero
    -- the loss is (b - b) / b, and both roundings of it are exact
    obtain ⟨hsame, hdifference⟩ := (rounds_sub hfinite hfinite).value_eq (w := 0.0) rfl
      (sub_self _).symm
    rw [sub_self] at hdifference
    obtain ⟨hloss, hquotient⟩ := (rounds_div hsame hfinite hvalue).value_eq (w := 0.0) rfl
      (by rw [hdifference, zero_div]; rfl)
    rw [hdifference, zero_div] at hquotient
    have hadvance := advance_of_rest hfinite hlow hrest hfinite hnonzero
    rw [c.coldStep_of_zero hle hloss hquotient] at hadvance
    exact ⟨_, hadvance.trans (congrArg Except.ok (Prod.ext (hstays _) rfl))⟩

/-- The loss from a bandwidth within reach to the largest float is below the word. -/
theorem loss_largest {bandwidth : Float} (hfinite : bandwidth.isFinite = true)
    (hpos : 0 < value bandwidth) (hle : value bandwidth ≤ 10 ^ 9) :
    AtMost ((bandwidth - largest) / bandwidth) Step.minValue := by
  obtain ⟨hword, hvalue⟩ : (Float.ofInt Step.minValue).isFinite = true ∧
      value (Float.ofInt Step.minValue) = Step.minValue := value_ofInt (by decide)
  obtain ⟨w, hw, hbound⟩ := exists_value_eq (n := 1) (k := 62) (by decide) (by decide) (by decide)
  have hfall : value bandwidth - value largest ≤ -2 ^ 62 := by
    have hbig : (2 : ℚ) ^ (63 : ℤ) ≤ 2 ^ (971 : ℤ) := zpow_le_zpow_right₀ (by norm_num) (by norm_num)
    rw [value_largest]
    generalize (2 : ℚ) ^ (971 : ℤ) = top at *
    norm_num at hbig ⊢
    linarith
  have hdifference := rounds_sub hfinite isFinite_largest
  have hfin : (bandwidth - largest).isFinite = true := by
    apply hdifference.finite largest isFinite_largest
    rw [abs_of_neg (by linarith), abs_of_nonneg (by linarith)]
    linarith
  have hdeep : value (bandwidth - largest) ≤ -2 ^ 62 := by
    have hle := hdifference.ge hfin w hw (by
      rw [hbound, abs_of_neg (by linarith : value bandwidth - value largest < 0)]
      norm_num
      linarith)
    rw [hbound, abs_of_nonpos (hdifference.nonpos (by linarith))] at hle
    norm_num at hle
    linarith
  have hquotient := rounds_div hfin hfinite hpos.ne'
  rw [← hvalue]
  apply hquotient.atMost hword
  · rw [hvalue]
    norm_num [Step.minValue]
  · rw [hvalue, div_le_iff₀ hpos]
    norm_num [Step.minValue]
    linarith

/-- Every ratio but 0 takes such a loss for the most negative step. -/
theorem coldStep_of_atMost (c : ControllerConfig) {ratio : Nat} {loss : Float} (hpos : 0 < ratio)
    (hle : ratio ≤ maxRatio) (h : AtMost loss Step.minValue) :
    c.coldStep ratio loss = Step.minValue := by
  obtain ⟨hword, hvalue⟩ : (Float.ofInt Step.minValue).isFinite = true ∧
      value (Float.ofInt Step.minValue) = Step.minValue := value_ofInt (by decide)
  obtain ⟨hratio, hnat⟩ := value_ofNat (n := ratio) (by unfold maxRatio at hle; omega)
  have hstep : AtMost (Float.ofNat ratio * loss) Step.minValue := by
    rw [← hvalue] at h ⊢
    apply h.mul hword _ hratio
    · rw [hnat]
      exact_mod_cast hpos
    · rw [hvalue]
      norm_num [Step.minValue]
  unfold coldStep
  rw [Step.ofFloat_of_atMost _ hstep]
  apply if_neg
  have hmost : Step.saturate (2 * c.minStep) ≤ Step.magnitude Step.minValue := by
    change _ ≤ Step.maxValue
    unfold Step.saturate Step.minValue Step.maxValue
    omega
  exact not_lt.2 hmost

/-- The limits leave something of the most negative step. -/
theorem limit_minValue_neg (hc : c.Valid) (hword : Step.InWord c.maxStep) :
    (c.limit Step.minValue).step < 0 := by
  obtain ⟨hmin, hmax, hle⟩ := hc.le
  have hsize : Step.magnitude Step.minValue = Step.maxValue := rfl
  unfold Step.InWord at hword
  unfold limit
  rw [hsize, if_neg (by omega)]
  split
  · change c.maxStep * (-1) < 0
    omega
  · decide

/-- From rest, the largest float moves every ratio but 0 down. -/
theorem adjust_largest (hc : c.Valid) (hword : Step.InWord c.maxStep) {rest : ControlState}
    (hratio : 0 < rest.ratio) (hle : rest.ratio ≤ maxRatio) (hrest : rest.step = 0)
    (hfinite : rest.bandwidth.isFinite = true) (hpos : 0 < value rest.bandwidth)
    (hreach : value rest.bandwidth ≤ 10 ^ 9) :
    ∃ next, c.adjust rest largest = .ok next ∧ next.ratio < rest.ratio := by
  have hhigh : ¬largest < c.lowBandwidthThreshold := by
    rw [lt_iff_value_lt isFinite_largest (Valid.isFinite hc)]
    have := abs_value_le_largest (Valid.isFinite hc)
    exact not_lt.2 ((le_abs_self _).trans this)
  have hnonzero : (rest.bandwidth == 0.0) = false := by
    rw [Bool.eq_false_iff, Ne, beq_iff_value_eq hfinite rfl]
    exact hpos.ne'
  have hadvance := advance_of_rest (c := c) isFinite_largest hhigh hrest hfinite hnonzero
  rw [coldStep_of_atMost c hratio hle (loss_largest hfinite hpos hreach)] at hadvance
  refine ⟨_, by rw [adjust, hadvance]; rfl, ?_⟩
  have hstep := limit_minValue_neg hc hword
  change (moveRatio rest.ratio (c.limit Step.minValue).step).1 < rest.ratio
  rw [moveRatio_down hle hstep.le]
  omega

/-- Some finite observations lead to another ratio. -/
def Recovers (c : ControllerConfig) (rest : ControlState) : Prop :=
  ∃ observations : List Float, (∀ observed ∈ observations, observed.isFinite = true) ∧
    (c.stateAfter rest observations).ratio ≠ rest.ratio

theorem not_recovers_at_zero {rest : ControlState} (hratio : rest.ratio = 0) (hrest : rest.step = 0) :
    ¬c.Recovers rest := by
  rintro ⟨observations, -, hmoved⟩
  exact hmoved ((stateAfter_at_zero hratio hrest observations).1.trans hratio.symm)

theorem value_billion : value 1e9 = 10 ^ 9 := by
  have hword : (1e9 : Float) = .ofBits 0x41CDCD6500000000 := by decide +kernel
  rw [hword]
  change unpackedValue (.finite .positive 8388608000000000 (-23) (by decide)) = _
  norm_num [unpackedValue, UnpackedFloat.Sign.apply]

/-- At rest, after a bandwidth of no more than a billion, a controller can recover from every ratio but
0, whatever its dead zone, its step limit and its threshold are. -/
theorem recovers_iff (hc : c.Valid) (hword : Step.InWord c.maxStep) {rest : ControlState}
    (hle : rest.ratio ≤ maxRatio) (hrest : rest.step = 0) (hpos : 0.0 < rest.bandwidth)
    (hreach : rest.bandwidth ≤ 1e9) : c.Recovers rest ↔ rest.ratio ≠ 0 := by
  have hfinite := isFinite_of_between (a := 0.0) (b := 1e9) rfl rfl hpos hreach
  rw [lt_iff_value_lt rfl hfinite] at hpos
  rw [le_iff_value_le hfinite rfl, value_billion] at hreach
  constructor
  · intro hrecovers hratio
    exact not_recovers_at_zero hratio hrest hrecovers
  · intro hratio
    obtain ⟨next, hadjust, hdown⟩ := adjust_largest hc hword (Nat.pos_of_ne_zero hratio) hle hrest
      hfinite hpos hreach
    refine ⟨[largest], by simp [isFinite_largest], ?_⟩
    rw [stateAfter_cons, hadjust]
    exact hdown.ne

/-- The widest dead zone there is. -/
def sluggish : ControllerConfig :=
  { minStep := Step.maxValue, maxStep := Step.maxValue, rounding := .towardZero }

/-- Even the widest dead zone lets a controller recover from ratio 1, where the loss is infinite. -/
theorem recovers_iff_sluggish :
    sluggish.Recovers ⟨1, 0, 5e-324⟩ ∧ ¬sluggish.Recovers ⟨0, 0, 5e-324⟩ := by
  have hpos : (0.0 : Float) < 5e-324 := by decide +kernel
  have hreach : (5e-324 : Float) ≤ 1e9 := by decide +kernel
  have hat (ratio : Nat) (hle : ratio ≤ maxRatio) :
      sluggish.Recovers ⟨ratio, 0, 5e-324⟩ ↔ ratio ≠ 0 :=
    recovers_iff (by decide) (by decide) hle rfl hpos hreach
  exact ⟨(hat 1 (by decide)).2 (by decide), fun h => (hat 0 (by decide)).1 h rfl⟩

/-- So there is a rest that no later workload can leave, with the default configuration and an ordinary
bandwidth. -/
theorem rest_at_zero_lasts :
    ({} : ControllerConfig).Valid ∧ Step.InWord ({} : ControllerConfig).maxStep ∧
      (0.0 : Float) < 100.0 ∧ (100.0 : Float) ≤ 1e9 ∧
      ¬({} : ControllerConfig).Recovers ⟨0, 0, 100.0⟩ :=
  ⟨valid_default, by decide, by decide +kernel, by decide +kernel, not_recovers_at_zero rfl rfl⟩

end ControllerConfig

end Interleave
