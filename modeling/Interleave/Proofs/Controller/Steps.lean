import Interleave.Controller
import Interleave.Proofs.Number.Rounds

/-!
# Steps of the control law

The law computes its steps in floats and rounds them to integers of a 32-bit word (`InWord`). Here
are the sizes and signs of the steps that the rules propose, for every previous step and whatever the
loss of bandwidth is, and of what the limits leave of a proposal.

Results:
* `dampedStep_between`: a damped step lies between 0 and the last step.
* `reversedStep_eq`: a reversed step is exactly half the last step, backwards and rounded.
* `limits`: the four things that the limits can make of a proposal.
* `limit_cases`: within the limits, a step is 0 or has the sign of its proposal, at least the size of
  the dead zone and at most that of the proposal and of the step limit (or one more, for the most
  negative step).
* `advance_eq_error_iff`: which observations the law refuses, and how.
-/
namespace Interleave

open Number Float.Model Float.Model.UnpackedFloat

/-! ## Numbers to integers -/

namespace Rounding

/-- What is added before the fraction is dropped. -/
def half : Rounding → ℚ
  | nearest => 1 / 2
  | towardZero => 0

theorem quotient_eq_floor (mode : Rounding) (n : Nat) {d : Nat} (hd : 0 < d) :
    mode.quotient n d = ⌊(n / d : ℚ) + mode.half⌋₊ := by
  cases mode with
  | towardZero =>
    rw [half, add_zero, Nat.floor_div_eq_div]
    rfl
  | nearest =>
    have hd0 : (d : ℚ) ≠ 0 := by positivity
    have hsum : (n / d : ℚ) + 1 / 2 = (2 * n + d : Nat) / (2 * d : Nat) := by
      push_cast
      field_simp
    rw [half, hsum, Nat.floor_div_eq_div]
    rfl

theorem half_mem (mode : Rounding) : 0 ≤ mode.half ∧ mode.half < 1 := by
  cases mode <;> norm_num [half]

/-- A whole number rounds to itself. -/
theorem floor_add_half (mode : Rounding) (n : Nat) : ⌊(n : ℚ) + mode.half⌋₊ = n := by
  obtain ⟨hlo, hhi⟩ := mode.half_mem
  rw [add_comm, Nat.floor_add_natCast hlo, Nat.floor_eq_zero.2 hhi, zero_add]

theorem magnitude_eq_floor (mode : Rounding) (m : Nat) (e : Int) :
    mode.magnitude m e = ⌊(m * 2 ^ e : ℚ) + mode.half⌋₊ := by
  simp only [magnitude, Nat.pow_eq]
  split
  · rename_i he
    have hint : (m * 2 ^ e : ℚ) = (m * 2 ^ e.toNat : Nat) := by
      push_cast
      rw [← zpow_natCast, Int.toNat_of_nonneg he]
    rw [hint, floor_add_half]
  · rename_i he
    have hfrac : (m * 2 ^ e : ℚ) = m / (2 ^ (-e).toNat : Nat) := by
      push_cast
      rw [← zpow_natCast, Int.toNat_of_nonneg (by omega), zpow_neg, div_inv_eq_mul]
    rw [hfrac, quotient_eq_floor mode m (by positivity)]

theorem toInt_of_isFinite (mode : Rounding) (bottom top : Int) {x : Float}
    (hx : x.isFinite = true) : mode.toInt bottom top x =
      if value x < 0 then -(⌊|value x| + mode.half⌋₊ : Int) else ⌊|value x| + mode.half⌋₊ := by
  have hform := finiteForm_unpack hx
  unfold toInt value
  generalize x.toModel.unpack = u at *
  cases hform with
  | zero s =>
    have h := mode.floor_add_half 0
    rw [Nat.cast_zero, zero_add] at h
    simp [unpackedValue, h]
  | @finite s m e h _ =>
    rw [abs_unpackedValue_finite, ← magnitude_eq_floor]
    have hpos : (0 : ℚ) < m * 2 ^ e := by positivity
    cases s with
    | positive => simp [unpackedValue, Sign.apply, hpos.le]
    | negative => simp [unpackedValue, Sign.apply, hpos]

/-- A number no larger than a whole number stays so. -/
theorem natAbs_toInt_le (mode : Rounding) (bottom top : Int) {x : Float} (hx : x.isFinite = true)
    {n : Nat} (h : |value x| ≤ n) : (mode.toInt bottom top x).natAbs ≤ n := by
  have hfloor : ⌊|value x| + mode.half⌋₊ ≤ n := by
    rw [← mode.floor_add_half n]
    exact Nat.floor_mono (by linarith)
  rw [toInt_of_isFinite mode bottom top hx]
  split <;> omega

theorem toInt_of_nonneg (mode : Rounding) (bottom top : Int) {x : Float} (hx : x.isFinite = true)
    (h : 0 ≤ value x) : mode.toInt bottom top x = ⌊|value x| + mode.half⌋₊ := by
  rw [toInt_of_isFinite mode bottom top hx, if_neg (not_lt.2 h)]

theorem toInt_of_nonpos (mode : Rounding) (bottom top : Int) {x : Float} (hx : x.isFinite = true)
    (h : value x ≤ 0) : mode.toInt bottom top x = -⌊|value x| + mode.half⌋₊ := by
  rw [toInt_of_isFinite mode bottom top hx]
  rcases h.lt_or_eq with h | h
  · rw [if_pos h]
  · have h0 := mode.floor_add_half 0
    rw [Nat.cast_zero, zero_add] at h0
    simp [h, h0]

/-- A factor of at most 1 neither enlarges a whole number nor turns its sign, rounded or not. -/
theorem toInt_mul_between (mode : Rounding) (bottom top : Int) {x : Float} {n : Int}
    (hx : x.isFinite = true) (hx0 : 0 ≤ value x) (hx1 : value x ≤ 1) (hn : n.natAbs < 2 ^ 53) :
    0 ≤ mode.toInt bottom top (x * Float.ofInt n) ∧ mode.toInt bottom top (x * Float.ofInt n) ≤ n ∨
      n ≤ mode.toInt bottom top (x * Float.ofInt n) ∧
        mode.toInt bottom top (x * Float.ofInt n) ≤ 0 := by
  obtain ⟨hfn, hvn⟩ := value_ofInt hn
  have hr := rounds_mul hx hfn
  have hsize : |value x * value (Float.ofInt n)| ≤ |value (Float.ofInt n)| := by
    rw [abs_mul, abs_of_nonneg hx0]
    exact mul_le_of_le_one_left (abs_nonneg _) hx1
  have hfin := hr.finite _ hfn hsize
  have hle : |value (x * Float.ofInt n)| ≤ (n.natAbs : Nat) := by
    refine (hr.le _ hfn hsize).trans_eq ?_
    rw [hvn, Nat.cast_natAbs, Int.cast_abs]
  have habs := mode.natAbs_toInt_le bottom top hfin hle
  rw [hvn] at hr
  rcases le_total 0 n with hs | hs
  · have hsign := hr.nonneg (mul_nonneg hx0 (by exact_mod_cast hs))
    rw [mode.toInt_of_nonneg bottom top hfin hsign] at habs ⊢
    omega
  · have hsign := hr.nonpos (mul_nonpos_of_nonneg_of_nonpos hx0 (by exact_mod_cast hs))
    rw [mode.toInt_of_nonpos bottom top hfin hsign] at habs ⊢
    omega

end Rounding

theorem value_literal_one : value 1.0 = 1 := by
  change unpackedValue (.finite .positive (2 ^ 52) (-52) (by decide)) = 1
  norm_num [unpackedValue, Sign.apply]

theorem value_literal_two : value 2.0 = 2 := by
  change unpackedValue (.finite .positive (2 ^ 52) (-51) (by decide)) = 2
  norm_num [unpackedValue, Sign.apply]

namespace Step

/-- The integers of a 32-bit word. -/
def InWord (n : Int) : Prop := minValue ≤ n ∧ n ≤ maxValue

instance (n : Int) : Decidable (InWord n) := inferInstanceAs (Decidable (_ ∧ _))

theorem inWord_saturate (n : Int) : InWord (saturate n) := by
  unfold InWord saturate minValue maxValue; omega

theorem inWord_magnitude (n : Int) : InWord (magnitude n) := by
  unfold InWord magnitude minValue maxValue; omega

theorem InWord.natAbs_le {n : Int} (h : InWord n) : n.natAbs ≤ 2 ^ 31 := by
  unfold InWord minValue maxValue at h; omega

end Step

open Step

namespace ControllerConfig

variable (c : ControllerConfig)

/-! ## What the rules propose -/

theorem inWord_coldStep (ratio : Nat) (loss : Float) : InWord (c.coldStep ratio loss) := by
  unfold coldStep
  dsimp only
  split
  · unfold InWord minValue maxValue; omega
  · exact inWord_saturate _

/-- The damped step lies between 0 and the last step, whatever the loss is. -/
theorem dampedStep_between {last : Int} (hlast : InWord last) (loss : Float) :
    0 ≤ c.dampedStep last loss ∧ c.dampedStep last loss ≤ last ∨
      last ≤ c.dampedStep last loss ∧ c.dampedStep last loss ≤ 0 := by
  unfold dampedStep
  dsimp only
  split
  · rename_i hlt
    have hword := hlast.natAbs_le
    have hfin := isFinite_of_abs_lt hlt
    set x := loss * 100.0 / Float.ofInt last
    rw [← isFinite_abs] at hfin
    rw [lt_iff_value_lt hfin rfl, value_literal_one] at hlt
    have hbetween := c.rounding.toInt_mul_between minValue maxValue (n := last) hfin
      (by rw [value_abs]; exact abs_nonneg _) hlt.le (by omega)
    unfold InWord at hlast
    unfold ofFloat saturate
    omega
  · rcases le_total 0 last with hs | hs
    · exact .inl ⟨hs, le_rfl⟩
    · exact .inr ⟨le_rfl, hs⟩

theorem saturate_of_natAbs_le {n : Int} (h : n.natAbs ≤ 2 ^ 30) : saturate n = n :=
  saturate_of_mem (by unfold minValue maxValue; omega)

/-- Halving is exact, so a reversed step is the half as the rounding takes it. -/
theorem reversedStep_eq {last : Int} (hlast : InWord last) :
    c.reversedStep last = -(last.sign * c.rounding.quotient last.natAbs 2) := by
  have hword := hlast.natAbs_le
  obtain ⟨hfl, hvl⟩ := value_ofInt (n := last) (by omega)
  have hr := rounds_div (x := -Float.ofInt last) (y := 2.0) (by rwa [isFinite_neg]) rfl
    (by rw [value_literal_two]; norm_num)
  rw [value_neg, hvl, value_literal_two] at hr
  have hq : c.rounding.quotient last.natAbs 2 ≤ 2 ^ 30 := by
    unfold Rounding.quotient
    split <;> omega
  have hfloor : ⌊|(-last / 2 : ℚ)| + c.rounding.half⌋₊ = c.rounding.quotient last.natAbs 2 := by
    rw [abs_div, abs_neg, ← Int.cast_abs, ← Nat.cast_natAbs]
    norm_num [c.rounding.quotient_eq_floor last.natAbs two_pos]
  obtain ⟨w, hw, hv⟩ := exists_value_eq (n := last.natAbs) (k := -1) (by omega) (by decide) (by decide)
  rw [zpow_neg_one, ← div_eq_mul_inv, Nat.cast_natAbs, Int.cast_abs] at hv
  unfold reversedStep ofFloat
  rcases lt_trichotomy 0 last with hs | rfl | hs
  · have hs' : (0 : ℚ) < last := by exact_mod_cast hs
    obtain ⟨hfin, hval⟩ := hr.value_eq (w := -w) (by rwa [isFinite_neg]) (by
      rw [value_neg, hv, abs_of_pos hs']; ring)
    rw [c.rounding.toInt_of_nonpos _ _ hfin (by rw [hval]; linarith), hval, hfloor,
      saturate_of_natAbs_le (by omega), Int.sign_eq_one_of_pos hs, one_mul]
  · obtain ⟨hfin, hval⟩ := hr.value_eq (w := w) hw (by rw [hv]; norm_num)
    rw [c.rounding.toInt_of_nonneg _ _ hfin (by rw [hval]; norm_num), hval, hfloor,
      saturate_of_natAbs_le (by omega)]
    cases c.rounding <;> rfl
  · have hs' : (last : ℚ) < 0 := by exact_mod_cast hs
    obtain ⟨hfin, hval⟩ := hr.value_eq (w := w) hw (by rw [hv, abs_of_neg hs'])
    rw [c.rounding.toInt_of_nonneg _ _ hfin (by rw [hval]; linarith), hval, hfloor,
      saturate_of_natAbs_le (by omega), Int.sign_eq_neg_one_of_neg hs, neg_one_mul, neg_neg]

variable {c} in
theorem natAbs_reversedStep {last : Int} (hlast : InWord last) (hmoving : last ≠ 0) :
    (c.reversedStep last).natAbs = c.rounding.quotient last.natAbs 2 := by
  rw [reversedStep_eq c hlast, Int.natAbs_neg, Int.natAbs_mul, Int.natAbs_sign_of_ne_zero hmoving,
    Int.natAbs_natCast, Nat.one_mul]

/-! ## What the limits leave -/

/-- What is left of a proposal that was neither nothing nor dropped: a step of its sign, outside the
dead zone and no larger than the proposal. The step limit can be passed by one: the size of the most
negative word is taken for one less than it is. -/
structure Kept (proposed step : Int) : Prop where
  sign : step.sign = proposed.sign
  outside : max c.minStep 1 ≤ step.natAbs
  le : step.natAbs ≤ proposed.natAbs
  le_max : (step.natAbs : Int) ≤ c.maxStep + 1

/-- A proposal that is cut is as large as the step limit. -/
theorem natAbs_cut {proposed : Int} (h : proposed ≠ 0) :
    (c.maxStep * proposed.sign).natAbs = c.maxStep.natAbs := by
  rw [Int.natAbs_mul, Int.natAbs_sign_of_ne_zero h, Nat.mul_one]

/-- What the limits make of a proposal, and when: it is nothing already, or it is dropped, cut to the step
limit, or left as it is. -/
inductive Limits (proposed : Int) : Limited → Prop
  | nothing : proposed = 0 → Limits proposed ⟨0, false, false⟩
  | dropped : proposed ≠ 0 → magnitude proposed < c.minStep → Limits proposed ⟨0, true, false⟩
  | cut : proposed ≠ 0 → c.minStep ≤ magnitude proposed → c.maxStep < magnitude proposed →
      Limits proposed ⟨c.maxStep * proposed.sign, false, true⟩
  | left : proposed ≠ 0 → c.minStep ≤ magnitude proposed → magnitude proposed ≤ c.maxStep →
      Limits proposed ⟨proposed, false, false⟩

theorem limits (hc : c.Valid) (proposed : Int) : c.Limits proposed (c.limit proposed) := by
  have hmax := hc.le.2.1
  rcases eq_or_ne proposed 0 with rfl | hne
  · have hsize : magnitude 0 ≤ c.maxStep := hmax.le
    unfold limit
    rw [if_neg (not_lt.2 hsize), decide_eq_false (not_not.2 rfl), ite_self]
    exact .nothing rfl
  unfold limit
  split
  · rename_i hdead
    rw [decide_eq_true hne]
    exact .dropped hne hdead
  · rename_i hdead
    split
    · rename_i hlarge
      exact .cut hne (not_lt.1 hdead) hlarge
    · rename_i hfits
      exact .left hne (not_lt.1 hdead) (not_lt.1 hfits)

theorem limit_cases (hc : c.Valid) {proposed : Int} (hp : InWord proposed) :
    (c.limit proposed).step = 0 ∨ c.Kept proposed (c.limit proposed).step := by
  have hlimits := c.limits hc proposed
  obtain ⟨hmin, hmax, hle⟩ := hc.le
  unfold InWord minValue maxValue at hp
  generalize c.limit proposed = limited at hlimits
  cases hlimits with
  | nothing => exact .inl rfl
  | dropped => exact .inl rfl
  | cut hne _ hlarge =>
    have hsize := c.natAbs_cut hne
    unfold magnitude maxValue at hlarge
    refine .inr ⟨?_, ?_, ?_, ?_⟩
    · rw [Int.sign_mul, Int.sign_eq_one_of_pos hmax, one_mul, Int.sign_sign]
    all_goals dsimp only; rw [hsize]; omega
  | left hne hdead hfits =>
    unfold magnitude maxValue at hdead hfits
    exact .inr ⟨rfl, by dsimp only; omega, le_rfl, by dsimp only; omega⟩

section
variable {c} {proposed step : Int}

theorem Kept.neg_iff (h : c.Kept proposed step) : step < 0 ↔ proposed < 0 := by
  rw [← Int.sign_eq_neg_one_iff_neg, h.sign, Int.sign_eq_neg_one_iff_neg]

theorem Kept.inWord (h : c.Kept proposed step) (hword : InWord proposed) : InWord step := by
  have hle := h.le
  have hneg := h.neg_iff
  unfold InWord minValue maxValue at *
  omega

theorem inWord_zero : InWord 0 := by decide

theorem inWord_limit (hc : c.Valid) (hp : InWord proposed) : InWord (c.limit proposed).step := by
  rcases c.limit_cases hc hp with h0 | hkept
  · rw [h0]
    exact inWord_zero
  · exact hkept.inWord hp

end

/-! ## One step of the law -/

/-- What each rule proposes, and when it is in charge. -/
inductive Proposes (prev : ControlState) (observed : Float) : Rule → Int → Prop
  | escape : observed < c.lowBandwidthThreshold →
      Proposes prev observed .lowBandwidthEscape (magnitude prev.step)
  | coldStart (loss : Float) : ¬observed < c.lowBandwidthThreshold → prev.step = 0 →
      relativeLoss .coldStart prev.bandwidth observed = .ok loss →
      Proposes prev observed .coldStart (c.coldStep prev.ratio loss)
  | improving (loss : Float) : ¬observed < c.lowBandwidthThreshold → prev.step ≠ 0 →
      prev.bandwidth < observed → relativeLoss .damping prev.bandwidth observed = .ok loss →
      Proposes prev observed .improving (c.dampedStep prev.step loss)
  | regressing : ¬observed < c.lowBandwidthThreshold → prev.step ≠ 0 → ¬prev.bandwidth < observed →
      Proposes prev observed .regressing (c.reversedStep prev.step)

variable {c} {prev next : ControlState} {observed : Float} {rule : Rule} {proposed : Int}
  {d : Decision}

theorem proposes_of_propose (h : c.propose prev observed = .ok (rule, proposed)) :
    c.Proposes prev observed rule proposed := by
  unfold propose at h
  split at h
  · rename_i hlow
    cases h
    exact .escape hlow
  · rename_i hlow
    split at h
    · rename_i hrest
      cases hloss : relativeLoss .coldStart prev.bandwidth observed with
      | error e => rw [hloss] at h; cases h
      | ok loss =>
        rw [hloss] at h
        cases h
        exact .coldStart loss hlow hrest hloss
    · rename_i hrest
      split at h
      · rename_i hup
        cases hloss : relativeLoss .damping prev.bandwidth observed with
        | error e => rw [hloss] at h; cases h
        | ok loss =>
          rw [hloss] at h
          cases h
          exact .improving loss hlow hrest hup hloss
      · rename_i hup
        cases h
        exact .regressing hlow hrest hup

/-- All that one step of the law can do. -/
theorem advance_cases (h : c.advance prev observed = .ok (next, d)) :
    c.Proposes prev observed d.rule d.proposed ∧
      next = ⟨(moveRatio prev.ratio (c.limit d.proposed).step).1, (c.limit d.proposed).step,
        observed⟩ := by
  refine ⟨?_, congrArg Prod.fst (advance_eq_apply h)⟩
  unfold advance at h
  split at h
  · cases h
  · split at h
    · cases h
    · cases hp : c.propose prev observed with
      | error e => rw [hp] at h; cases h
      | ok p =>
        rw [hp] at h
        cases h
        exact proposes_of_propose hp

theorem exists_advance (h : c.adjust prev observed = .ok next) :
    ∃ d, c.advance prev observed = .ok (next, d) := by
  unfold adjust at h
  cases hadvance : c.advance prev observed with
  | error fault => rw [hadvance] at h; cases h
  | ok step =>
    obtain ⟨state, d⟩ := step
    rw [hadvance] at h
    cases h
    exact ⟨d, rfl⟩

/-- Proposals are words, from a word. -/
theorem Proposes.inWord (h : c.Proposes prev observed rule proposed) (hw : InWord prev.step) :
    InWord proposed := by
  cases h with
  | escape => exact inWord_magnitude _
  | coldStart loss => exact c.inWord_coldStep _ _
  | improving loss =>
    have := c.dampedStep_between hw loss
    unfold InWord at hw ⊢
    unfold minValue maxValue at *
    omega
  | regressing => exact inWord_saturate _

theorem finite_of_advance (h : c.advance prev observed = .ok (next, d)) :
    next.bandwidth.isFinite = true := by
  rw [advance_bandwidth h]
  unfold advance at h
  split at h
  · cases h
  · rename_i hfinite
    simpa using hfinite

/-- What the law makes of a bandwidth that has not changed. -/
theorem advance_of_same (hfinite : observed.isFinite = true)
    (hhigh : ¬observed < c.lowBandwidthThreshold) (hsame : prev.bandwidth = observed)
    (hmoving : prev.step ≠ 0) :
    c.advance prev observed =
      .ok (c.apply prev observed .regressing (c.reversedStep prev.step)) := by
  have hstill : ¬observed < observed := by
    rw [lt_iff_value_lt hfinite hfinite]
    exact lt_irrefl _
  unfold advance propose
  rw [hsame]
  simp [hfinite, hhigh, hmoving, hstill, Except.map]

/-- What the law makes of any bandwidth from rest. -/
theorem advance_of_rest (hfinite : observed.isFinite = true)
    (hhigh : ¬observed < c.lowBandwidthThreshold) (hrest : prev.step = 0)
    (hbefore : prev.bandwidth.isFinite = true) (hnonzero : (prev.bandwidth == 0.0) = false) :
    c.advance prev observed = .ok (c.apply prev observed .coldStart
      (c.coldStep prev.ratio ((prev.bandwidth - observed) / prev.bandwidth))) := by
  unfold advance propose relativeLoss
  simp [hfinite, hbefore, hhigh, hrest, hnonzero, Except.map]

/-! ## Refusals -/

/-- Why the law refuses a step: an observation or a bandwidth before that is not a number, or a loss of
a bandwidth of 0. The escape and a regression take no loss. -/
inductive Refuses (c : ControllerConfig) (prev : ControlState) (observed : Float) :
    ControlFault → Prop
  | observed : observed.isFinite = false →
      Refuses c prev observed (.invalidBandwidth prev.ratio observed)
  | before : observed.isFinite = true → prev.bandwidth.isFinite = false →
      Refuses c prev observed (.invalidBandwidth prev.ratio prev.bandwidth)
  | coldStart : observed.isFinite = true → prev.bandwidth.isFinite = true →
      ¬observed < c.lowBandwidthThreshold → prev.step = 0 → (prev.bandwidth == 0.0) = true →
      Refuses c prev observed (.divisionByZero .coldStart)
  | damping : observed.isFinite = true → prev.bandwidth.isFinite = true →
      ¬observed < c.lowBandwidthThreshold → prev.step ≠ 0 → prev.bandwidth < observed →
      (prev.bandwidth == 0.0) = true → Refuses c prev observed (.divisionByZero .damping)

variable {fault : ControlFault}

theorem relativeLoss_eq_error {place : ChangeOf} {previous : Float}
    (h : relativeLoss place previous observed = .error fault) :
    (previous == 0.0) = true ∧ fault = .divisionByZero place := by
  unfold relativeLoss at h
  split at h
  · rename_i hzero
    cases h
    exact ⟨hzero, rfl⟩
  · cases h

theorem refuses_of_propose (hfinite : observed.isFinite = true)
    (hbefore : prev.bandwidth.isFinite = true) (h : c.propose prev observed = .error fault) :
    c.Refuses prev observed fault := by
  unfold propose at h
  split at h
  · cases h
  · rename_i hlow
    split at h
    · rename_i hrest
      cases hloss : relativeLoss .coldStart prev.bandwidth observed with
      | ok loss => rw [hloss] at h; cases h
      | error e =>
        rw [hloss] at h
        cases h
        obtain ⟨hzero, rfl⟩ := relativeLoss_eq_error hloss
        exact .coldStart hfinite hbefore hlow hrest hzero
    · rename_i hrest
      split at h
      · rename_i hup
        cases hloss : relativeLoss .damping prev.bandwidth observed with
        | ok loss => rw [hloss] at h; cases h
        | error e =>
          rw [hloss] at h
          cases h
          obtain ⟨hzero, rfl⟩ := relativeLoss_eq_error hloss
          exact .damping hfinite hbefore hlow hrest hup hzero
      · cases h

/-- The law fails for these reasons, and for no other. -/
theorem advance_eq_error_iff : c.advance prev observed = .error fault ↔ c.Refuses prev observed fault := by
  constructor
  · intro h
    unfold advance at h
    split at h
    · rename_i hobserved
      cases h
      exact .observed (by simpa using hobserved)
    · rename_i hobserved
      split at h
      · rename_i hbefore
        cases h
        exact .before (by simpa using hobserved) (by simpa using hbefore)
      · rename_i hbefore
        cases hp : c.propose prev observed with
        | ok p => rw [hp] at h; cases h
        | error e =>
          rw [hp] at h
          cases h
          exact refuses_of_propose (by simpa using hobserved) (by simpa using hbefore) hp
  · intro h
    unfold advance propose relativeLoss
    cases h with
    | observed hobserved => simp [hobserved]
    | before hobserved hbefore => simp [hobserved, hbefore]
    | coldStart hobserved hbefore hlow hrest hzero =>
      simp [hobserved, hbefore, hlow, hrest, hzero, Except.map]
    | damping hobserved hbefore hlow hmoving hup hzero =>
      simp [hobserved, hbefore, hlow, hmoving, hup, hzero, Except.map]

end ControllerConfig

/-! ## Moves -/

/-- A step upwards raises the ratio by its size, or to the top. -/
theorem moveRatio_up {ratio : Nat} {step : Int} (h : 0 ≤ step) :
    (moveRatio ratio step).1 = min (ratio + step.natAbs) maxRatio := by
  simp only [moveRatio]; omega

/-- A step downwards lowers the ratio by its size, or to 0. -/
theorem moveRatio_down {ratio : Nat} {step : Int} (hr : ratio ≤ maxRatio) (h : step ≤ 0) :
    (moveRatio ratio step).1 = ratio - step.natAbs := by
  simp only [moveRatio]; omega

end Interleave
