import Interleave.Proofs.Number.Rounds
import Interleave.Proofs.Number.Shortest

/-!
# Rounding to the nearest float

The two bits that an operation keeps of what it drops of a mantissa tell on which side of a half the rest
lies. So of two neighbouring floats the nearer one is taken, and the even one of two that are equally near:
a number in the cell of a float is rounded to this float (`roundWithAccuracy_of_holds`). A decimal is
rounded in one step, as a product or a quotient of whole numbers, so a decimal in the cell of a float is
read as this float.

Results:
* `roundWithAccuracy_of_holds`: the rounding of a number in a cell.
* `Decimal.toFloat_of_holds`: the reading of a decimal in a cell.
-/
namespace Interleave.Number

open Float.Model Float.Model.UnpackedFloat Shortest

/-! ## Halves -/

/-- What the two bits of an extended mantissa say of the number `x` that it stands for. -/
structure Halves (em : ExtendedMantissa) (x : ℚ) : Prop extends Brackets em x where
  half_le : em.roundBit = true ↔ em.mantissa + 1 / 2 ≤ x
  half_eq : x = em.mantissa + 1 / 2 ↔ em.roundBit = true ∧ em.stickyBit = false

theorem halves_exact (m : Nat) : Halves (.ofMantissaAndAccuracy m .exact) m := by
  refine ⟨brackets_exact m, ?_, ?_⟩ <;> simp [ExtendedMantissa.ofMantissaAndAccuracy]

/-- The bits that a quotient keeps of its remainder. -/
theorem bits_fraction (m r : Nat) {b : Nat} (hb : 0 < b) :
    ((ExtendedMantissa.ofMantissaAndAccuracy m (accuracyOfFraction r b)).roundBit = true ↔ b ≤ 2 * r) ∧
      (2 * r = b ↔ (ExtendedMantissa.ofMantissaAndAccuracy m (accuracyOfFraction r b)).roundBit = true ∧
        (ExtendedMantissa.ofMantissaAndAccuracy m (accuracyOfFraction r b)).stickyBit = false) := by
  by_cases hr : r = 0
  · subst hr
    have hexact : accuracyOfFraction 0 b = .exact := rfl
    simp only [hexact, ExtendedMantissa.ofMantissaAndAccuracy]
    grind
  · rw [accuracyOfFraction, if_neg hr]
    rcases lt_trichotomy (2 * r) b with hlt | heq | hgt
    · rw [Nat.compare_eq_lt.2 hlt]
      simp [ExtendedMantissa.ofMantissaAndAccuracy, hlt, hlt.ne]
    · rw [Nat.compare_eq_eq.2 heq]
      simp [ExtendedMantissa.ofMantissaAndAccuracy, heq]
    · rw [Nat.compare_eq_gt.2 hgt]
      simp [ExtendedMantissa.ofMantissaAndAccuracy, hgt.le, hgt.ne']

theorem halves_fraction (a : Nat) {b : Nat} (hb : 0 < b) :
    Halves (.ofMantissaAndAccuracy (a / b) (accuracyOfFraction (a % b) b)) (a / b : ℚ) := by
  have hb0 : (0 : ℚ) < b := by exact_mod_cast hb
  have hquot := div_eq_quotient_add a hb
  obtain ⟨hround, htied⟩ := bits_fraction (a / b) (a % b) hb
  refine ⟨brackets_fraction a hb, ?_, ?_⟩
  · rw [hround, hquot, mantissa_accuracy, add_le_add_iff_left, le_div_iff₀ hb0, one_div,
      inv_mul_le_iff₀ two_pos]
    exact_mod_cast Iff.rfl
  · rw [← htied, hquot, mantissa_accuracy, add_right_inj, div_eq_div_iff hb0.ne' two_ne_zero, one_mul,
      mul_comm]
    exact_mod_cast Iff.rfl

theorem Halves.shiftRightOne {em : ExtendedMantissa} {x : ℚ} (h : Halves em x) :
    Halves em.shiftRightOne (x / 2) := by
  have hm : (em.mantissa : ℚ) = 2 * (em.mantissa / 2 : Nat) + (em.mantissa % 2 : Nat) := by
    exact_mod_cast (Nat.div_add_mod em.mantissa 2).symm
  have hle := h.le
  have hlt := h.lt
  refine ⟨h.toBrackets.shiftRightOne, ?_, ?_⟩ <;> simp only [ExtendedMantissa.shiftRightOne]
  all_goals
    rcases Nat.mod_two_eq_zero_or_one em.mantissa with hzero | hone
  · rw [hzero] at hm ⊢
    simp only [Nat.cast_zero, add_zero] at hm
    refine ⟨fun hbit => absurd hbit (by decide), fun hhalf => absurd hhalf ?_⟩
    linarith
  · rw [hone] at hm ⊢
    simp only [Nat.cast_one] at hm
    refine ⟨fun _ => ?_, fun _ => rfl⟩
    linarith
  · rw [hzero] at hm ⊢
    simp only [Nat.cast_zero, add_zero] at hm
    refine ⟨fun hhalf => absurd hhalf ?_, fun hbits => absurd hbits.1 (by decide)⟩
    exact ne_of_lt (by linarith)
  · rw [hone] at hm ⊢
    simp only [Nat.cast_one] at hm
    have hexact : x / 2 = (em.mantissa / 2 : Nat) + 1 / 2 ↔ x = em.mantissa := by
      constructor <;> intro heq <;> linarith
    rw [hexact, h.eq_iff, Bool.or_eq_false_iff]
    exact ⟨fun hbits => ⟨rfl, hbits⟩, fun hbits => hbits.2⟩

theorem Halves.shiftRight {em : ExtendedMantissa} {x : ℚ} (h : Halves em x) (n : Nat) :
    Halves (em >>> n) (x / 2 ^ n) := by
  change Halves (n.repeat ExtendedMantissa.shiftRightOne em) _
  induction n with
  | zero => simpa [Nat.repeat] using h
  | succ n ih =>
    rw [pow_succ, ← div_div]
    exact ih.shiftRightOne

/-- A number next to `x`, on either side of a half from it. -/
def Near (x : ℚ) (n : Nat) : Prop := |x - n| < 1 / 2 ∨ |x - n| = 1 / 2 ∧ n % 2 = 0

theorem eq_of_lt_succ {m n : Nat} (hmn : (m : ℚ) < n + 1) (hnm : (n : ℚ) < m + 1) : m = n := by
  have hmn : m < n + 1 := by exact_mod_cast hmn
  have hnm : n < m + 1 := by exact_mod_cast hnm
  omega

/-- What is next to a number is what it is rounded to. -/
theorem Halves.roundedMantissa_eq {em : ExtendedMantissa} {x : ℚ} (h : Halves em x) {n : Nat}
    (hn : Near x n) : em.roundedMantissa = n := by
  have hle := h.le
  have hlt := h.lt
  have hround := h.half_le
  have hexact := h.eq_iff
  have hhalf := h.half_eq
  have hdist : |x - n| ≤ 1 / 2 := hn.elim le_of_lt fun h => h.1.le
  obtain ⟨hlo, hhi⟩ := abs_le.1 hdist
  obtain ⟨m, r, s⟩ := em
  simp only at hle hlt hround hexact hhalf
  cases r <;> cases s <;>
    simp only [ExtendedMantissa.roundedMantissa, ExtendedMantissa.accuracy, Accuracy.roundToNearestEven]
  · have hx : x = m := hexact.2 ⟨rfl, rfl⟩
    exact eq_of_lt_succ (by linarith) (by linarith)
  · have hx : x < m + 1 / 2 := not_le.1 fun hle => Bool.false_ne_true (hround.2 hle)
    exact eq_of_lt_succ (by linarith) (by linarith)
  · have hx : x = m + 1 / 2 := hhalf.2 ⟨rfl, rfl⟩
    have hmn : m ≤ n := by
      have : (m : ℚ) ≤ n := by linarith
      exact_mod_cast this
    have hnm : n ≤ m + 1 := by
      have : (n : ℚ) ≤ m + 1 := by linarith
      exact_mod_cast this
    rcases hn with hnear | ⟨-, heven⟩
    · obtain ⟨hlo, hhi⟩ := abs_lt.1 hnear
      have : m < n := by
        have : (m : ℚ) < n := by linarith
        exact_mod_cast this
      have : n < m + 1 := by
        have : (n : ℚ) < m + 1 := by linarith
        exact_mod_cast this
      omega
    · omega
  · have hx : (m : ℚ) + 1 / 2 < x := lt_of_le_of_ne (hround.1 rfl) fun heq =>
      Bool.false_ne_true (hhalf.1 heq.symm).2.symm
    exact eq_of_lt_succ (by push_cast; linarith) (by push_cast; linarith)

/-! ## Cells -/

section
variable {m n : Nat} {e t q : Int} {acc : Accuracy} {x p : ℚ}

theorem shifted_eq (he : e ≤ t) (hx : Halves (.ofMantissaAndAccuracy m acc) x)
    (hn : Near (x * 2 ^ e / 2 ^ t) n) : shifted m acc (t - e).toNat = n := by
  apply (hx.shiftRight (t - e).toNat).roundedMantissa_eq
  have hscale : x / 2 ^ (t - e).toNat = x * 2 ^ e / 2 ^ t := by
    rw [← zpow_natCast, Int.toNat_of_nonneg (by omega), zpow_sub₀ two_ne_zero, div_div_eq_mul_div]
  rw [hscale]
  exact hn

/-- The ends of a cell, in steps of a quarter of its float's. -/
theorem holds_iff : (Cell.of n q).Holds p ↔
    if n % 2 = 0 then (Cell.of n q).low ≤ 4 * (p / 2 ^ q) ∧ 4 * (p / 2 ^ q) ≤ (4 * n + 2 : Nat)
    else (Cell.of n q).low < 4 * (p / 2 ^ q) ∧ 4 * (p / 2 ^ q) < (4 * n + 2 : Nat) := by
  have hunit : (0 : ℚ) < 2 ^ (q - 2) := by positivity
  have hp : p = 4 * (p / 2 ^ q) * 2 ^ (q - 2) := by
    have hq : (2 : ℚ) ^ q = 2 ^ (q - 2) * 4 := by
      rw [zpow_sub₀ two_ne_zero]
      norm_num
    rw [hq]
    field_simp
  have hclosed : (Cell.of n q).closed = decide (n % 2 = 0) := rfl
  have hhigh : (Cell.of n q).high = 4 * n + 2 := rfl
  have hexponent : (Cell.of n q).exponent = q - 2 := rfl
  rw [Cell.Holds, hclosed, hhigh, hexponent]
  conv_lhs => rw [hp]
  simp only [decide_eq_true_iff, mul_le_mul_iff_left₀ hunit, mul_lt_mul_iff_left₀ hunit]

theorem low_ge (n : Nat) (q : Int) : (4 * n : ℚ) - 2 ≤ (Cell.of n q).low := by
  have hlow : 4 * n ≤ (Cell.of n q).low + 2 := by
    change 4 * n ≤ 4 * n - (if n = 0x10000000000000 ∧ -1074 < q then 1 else 2) + 2
    split <;> omega
  have hlow : (4 * n : ℚ) ≤ (Cell.of n q).low + 2 := by exact_mod_cast hlow
  linarith

/-- Both ends of a cell, whether they belong to it or not. -/
theorem Cell.Holds.ends (hp : (Cell.of n q).Holds p) :
    (Cell.of n q).low ≤ 4 * (p / 2 ^ q) ∧ 4 * (p / 2 ^ q) ≤ 4 * n + 2 := by
  rw [holds_iff] at hp
  push_cast at hp
  split at hp
  · exact hp
  · exact ⟨hp.1.le, hp.2.le⟩

theorem near_of_holds (hp : (Cell.of n q).Holds p) : Near (p / 2 ^ q) n := by
  have hlow := low_ge n q
  rw [holds_iff] at hp
  push_cast at hp
  by_cases heven : n % 2 = 0
  · rw [if_pos heven] at hp
    have hle : |p / 2 ^ q - n| ≤ 1 / 2 := abs_le.2 ⟨by linarith, by linarith⟩
    exact hle.lt_or_eq.imp_right fun heq => ⟨heq, heven⟩
  · rw [if_neg heven] at hp
    exact .inl (abs_lt.2 ⟨by linarith, by linarith⟩)

/-- Before it is rounded, a number has at most 53 bits before the point. -/
theorem lt_full (he : e ≤ t) (ht : m.log2 + 1 + e - 53 ≤ t) (hx : x < m + 1) :
    x * 2 ^ e < 2 ^ 53 * 2 ^ t := by
  have hfits : (m : ℚ) + 1 ≤ 2 ^ 53 * 2 ^ (t - e).toNat := by exact_mod_cast succ_le_shifted ht
  have hscale : (2 : ℚ) ^ t = 2 ^ (t - e).toNat * 2 ^ e := by
    rw [← zpow_natCast, Int.toNat_of_nonneg (by omega), ← zpow_add₀ two_ne_zero, sub_add_cancel]
  rw [hscale, ← mul_assoc]
  gcongr
  linarith

/-- Powers of two on both sides of a number are in order. -/
theorem add_lt_of_between {a b : Nat} {z : ℚ} (hlow : 2 ^ a * 2 ^ q ≤ z) (hhigh : z < 2 ^ b * 2 ^ t) :
    a + q < b + t := by
  rw [← zpow_natCast, ← zpow_add₀ two_ne_zero] at hlow hhigh
  exact (zpow_lt_zpow_iff_right₀ one_lt_two).1 (hlow.trans_lt hhigh)

/-- Below a power of two the floats are twice as dense, and the cell is narrower. -/
theorem low_powerOfTwo (hq : -1074 < q) : ((Cell.of (2 ^ 52) q).low : ℚ) = 2 ^ 54 - 1 := by
  have hlow : (Cell.of (2 ^ 52) q).low = 2 ^ 54 - 1 := by
    change 4 * 2 ^ 52 - (if 2 ^ 52 = 0x10000000000000 ∧ -1074 < q then 1 else 2) = 2 ^ 54 - 1
    rw [if_pos ⟨by norm_num, hq⟩]
    norm_num
  rw [hlow]
  norm_num

/-- A mantissa in the narrow part of the cell is next to a full one when it is doubled. -/
theorem near_double {y : ℚ} (hlow : 2 ^ 54 - 1 ≤ 4 * y) (hy : y < 2 ^ 52) : Near (2 * y) (2 ^ 53) := by
  have hle : |2 * y - (2 ^ 53 : Nat)| ≤ 1 / 2 := by
    push_cast
    exact abs_le.2 ⟨by linarith, by linarith⟩
  exact hle.lt_or_eq.imp_right fun heq => ⟨heq, by norm_num⟩

/-- A number in the cell of a float is rounded to the float. -/
theorem roundWithAccuracy_of_holds {s : Sign} {hpos : 0 < n} (hc : Canonical (.finite s n q hpos))
    (he : e ≤ Format.binary64.targetExponent (totalExponent m e))
    (hx : Halves (.ofMantissaAndAccuracy m acc) x) (hp : (Cell.of n q).Holds (x * 2 ^ e)) :
    roundWithAccuracy .binary64 s m e acc = .finite s n q hpos := by
  obtain ⟨hn, hfull, hq, -⟩ := hc
  obtain ⟨t, ht⟩ : ∃ t, Format.binary64.targetExponent (totalExponent m e) = t := ⟨_, rfl⟩
  rw [ht] at he
  have hsettled := settled_shifted ht he hx.toBrackets
  have hlog : m.log2 + 1 + e - 53 ≤ t := by rw [← ht, target_eq]; exact le_max_left _ _
  have hbelow := lt_full he hlog (mantissa_accuracy m acc ▸ hx.lt)
  rw [roundWithAccuracy_eq ht he hsettled.le_carry]
  have htwo (k : Int) : (0 : ℚ) < 2 ^ k := by positivity
  obtain ⟨hlow, hhigh⟩ := Cell.Holds.ends hp
  have hnear := near_of_holds hp
  have hcell := low_ge n q
  have hwhole : x * 2 ^ e = x * 2 ^ e / 2 ^ q * 2 ^ q := (div_mul_cancel₀ _ (htwo q).ne').symm
  set y := x * 2 ^ e / 2 ^ q with hy
  have hn53 : (n : ℚ) ≤ 2 ^ 53 - 1 := by
    have hle : n + 1 ≤ 2 ^ 53 := hn
    have hle : (n : ℚ) + 1 ≤ 2 ^ 53 := by exact_mod_cast hle
    linarith
  have hle : t ≤ q := by
    rcases hsettled.full with hleast | ⟨-, hfull⟩
    · omega
    · rw [zpow_add₀ two_ne_zero, hwhole] at hfull
      have hsmall : y * 2 ^ q < 2 ^ 53 * 2 ^ q := (mul_lt_mul_iff_left₀ (htwo q)).2 (by linarith)
      have := add_lt_of_between (a := 52) hfull hsmall
      omega
  rcases hle.eq_or_lt with rfl | hlt
  · rw [shifted_eq he hx hnear, settle, dif_neg hpos.ne', if_pos hn]
  · -- the cell reaches below the power of two that the float is
    have hnormal : 2 ^ 52 ≤ n := hfull.resolve_right (by have := hsettled.least; omega)
    have hysmall : y < 2 ^ 52 := by
      have hstep : (2 : ℚ) ^ (t + 1) ≤ 2 ^ q := zpow_le_zpow_right₀ one_le_two (by omega)
      rw [zpow_add_one₀ two_ne_zero] at hstep
      have hlt : y * 2 ^ q < 2 ^ 52 * 2 ^ q := by linarith
      exact (mul_lt_mul_iff_left₀ (htwo q)).1 hlt
    obtain rfl : n = 2 ^ 52 := by
      have hlt : (n : ℚ) < (2 ^ 52 : Nat) + 1 := by push_cast; linarith
      have hlt : n < 2 ^ 52 + 1 := by exact_mod_cast hlt
      omega
    rw [low_powerOfTwo (by have := hsettled.least; omega)] at hlow
    obtain rfl : q = t + 1 := by
      have hlarge : 2 ^ 51 * 2 ^ q ≤ y * 2 ^ q := (mul_le_mul_iff_left₀ (htwo q)).2 (by linarith)
      have := add_lt_of_between hlarge (hwhole ▸ hbelow)
      omega
    have hdouble : x * 2 ^ e / 2 ^ t = 2 * y := by
      rw [hy, zpow_add_one₀ two_ne_zero]
      field_simp
    rw [shifted_eq he hx (hdouble ▸ near_double hlow hysmall)]
    rfl

end

/-! ## Products and quotients -/

section
variable {m n k : Nat} {e f q : Int} {s : Sign} {hm : 0 < m} {hn : 0 < n} {hk : 0 < k}

/-- A product in the cell of a float is the float. -/
theorem mul_of_holds (hc : Canonical (.finite .positive k q hk))
    (hle : e + f ≤ Format.binary64.targetExponent (totalExponent (m * n) (e + f)))
    (hp : (Cell.of k q).Holds
      (unpackedValue (.finite .positive m e hm) * unpackedValue (.finite .positive n f hn))) :
    UnpackedFloat.mul .binary64 (.finite .positive m e hm) (.finite .positive n f hn) =
      .finite .positive k q hk := by
  rw [unpackedValue_mul] at hp
  apply roundWithAccuracy_of_holds hc hle (halves_exact (m * n))
  simpa [Sign.apply] using hp

/-- A quotient in the cell of a float is the float. -/
theorem div_of_holds (hc : Canonical (.finite .positive k q hk))
    (hp : (Cell.of k q).Holds
      (unpackedValue (.finite .positive m e hm) / unpackedValue (.finite .positive n f hn))) :
    UnpackedFloat.div .binary64 (.finite .positive m e hm) (.finite .positive n f hn) =
      .finite .positive k q hk := by
  let t := min (e - f) (Format.binary64.targetExponent (totalExponent m e - totalExponent n f))
  have ht := quotientExponent_le m n e f
  rw [unpackedValue_div (min_le_left _ _ : t ≤ e - f)] at hp
  apply roundWithAccuracy_of_holds hc (le_target_div hm hn (min_le_left _ _) ht) (halves_fraction _ hn)
  have hone : (((Sign.positive / Sign.positive).apply 1 : Int) : ℚ) = 1 := rfl
  rwa [hone, one_mul] at hp

end

/-! ## Decimals -/

/-- A number in the cell of a float is neither too small nor too large for one. -/
theorem Cell.Holds.range {k : Nat} {q : Int} {hk : 0 < k} {p : ℚ}
    (hc : Canonical (.finite .positive k q hk)) (hp : (Cell.of k q).Holds p) :
    0 < p ∧ (2 : ℚ) ^ (-1075 : Int) ≤ p ∧ p < 2 ^ (1024 : Int) := by
  obtain ⟨hlow, hhigh⟩ := Cell.Holds.ends hp
  obtain ⟨hk53, -, hq, hq'⟩ := hc
  have hcell := low_ge k q
  have htwo : (0 : ℚ) < 2 ^ q := by positivity
  have hk1 : (1 : ℚ) ≤ k := by exact_mod_cast hk
  have hk53 : (k : ℚ) ≤ 2 ^ 53 - 1 := by
    have hle : k + 1 ≤ 2 ^ 53 := hk53
    have hle : (k : ℚ) + 1 ≤ 2 ^ 53 := by exact_mod_cast hle
    linarith
  have hwhole : p = p / 2 ^ q * 2 ^ q := (div_mul_cancel₀ _ htwo.ne').symm
  have hleast : (2 : ℚ) ^ (-1075 : Int) ≤ p := by
    calc (2 : ℚ) ^ (-1075 : Int) ≤ 2 ^ (q - 1) := zpow_le_zpow_right₀ one_le_two (by omega)
      _ = 1 / 2 * 2 ^ q := by rw [zpow_sub_one₀ two_ne_zero]; ring
      _ ≤ p / 2 ^ q * 2 ^ q := (mul_le_mul_iff_left₀ htwo).2 (by linarith)
      _ = p := hwhole.symm
  refine ⟨lt_of_lt_of_le (by positivity) hleast, hleast, ?_⟩
  calc p = p / 2 ^ q * 2 ^ q := hwhole
    _ < 2 ^ 53 * 2 ^ q := (mul_lt_mul_iff_left₀ htwo).2 (by linarith)
    _ ≤ 2 ^ 53 * 2 ^ (971 : Int) := by
      have : (2 : ℚ) ^ q ≤ 2 ^ (971 : Int) := zpow_le_zpow_right₀ one_le_two hq'
      gcongr
    _ = 2 ^ (53 + 971 : Int) := by rw [zpow_add₀ two_ne_zero]; rfl

/-- A float of a positive value, as it is stored. -/
theorem exists_unpack {x : Float} (hx : x.isFinite = true) (hpos : 0 < value x) :
    ∃ m e, ∃ hm : 0 < m, x.toModel.unpack = .finite .positive m e hm := by
  have hform := finiteForm_unpack hx
  rw [value] at hpos
  generalize x.toModel.unpack = u at *
  cases hform with
  | zero s => exact absurd hpos (lt_irrefl 0)
  | @finite s m e hm _ =>
    cases s with
    | positive => exact ⟨m, e, hm, rfl⟩
    | negative =>
      rw [unpackedValue, cast_apply] at hpos
      have hneg : ((Sign.negative.apply 1 : Int) : ℚ) = -1 := rfl
      rw [hneg] at hpos
      have : (0 : ℚ) < m * 2 ^ e := by positivity
      linarith

/-- The powers of ten that are floats. -/
theorem value_powerOfTen {e : Nat} (h : e < Float.exactlyRepresentablePowersOfTen.size) :
    Float.exactlyRepresentablePowersOfTen[e].isFinite = true ∧
      value Float.exactlyRepresentablePowersOfTen[e] = 10 ^ e := by
  have hround : ∀ e, ∀ h : e < Float.exactlyRepresentablePowersOfTen.size,
      Float.exactlyRepresentablePowersOfTen[e] =
        .ofModel (.pack (UnpackedFloat.round .binary64 .positive (10 ^ e) 0)) := by
    decide +kernel
  have hrounds := rounds_round .positive (m := 10 ^ e) (by positivity) 0
  rw [← hround e h] at hrounds
  have hsize : e < 23 := h
  have hfive : 5 ^ e < 2 ^ 53 := by
    calc 5 ^ e ≤ 5 ^ 22 := Nat.pow_le_pow_right (by decide) (by omega)
      _ < 2 ^ 53 := by decide
  obtain ⟨w, hw, hvalue⟩ := exists_value_eq (k := e) hfive (by omega) (by omega)
  have hone : ((Sign.positive.apply 1 : Int) : ℚ) = 1 := rfl
  rw [hone, one_mul, zpow_zero, mul_one] at hrounds
  have hten : value w = (10 ^ e : Nat) := by
    rw [hvalue, zpow_natCast]
    push_cast
    rw [← mul_pow]
    norm_num
  obtain ⟨hfin, heq⟩ := hrounds.value_eq hw hten
  exact ⟨hfin, by rw [heq]; push_cast; rfl⟩

section
variable {c k : Nat} {q : Int} {hk : 0 < k}

/-- A decimal of few digits, and few places, is read by one operation on floats. -/
theorem ofScientific_short (hc : Canonical (.finite .positive k q hk)) {down : Bool} {e : Nat}
    (hshort : c < 2 ^ 53 ∧ e ≤ 22)
    (hd : (Cell.of k q).Holds (if down then (c : ℚ) / 10 ^ e else c * 10 ^ e)) :
    Float.ofScientific c down e = .ofModel (.pack (.finite .positive k q hk)) := by
  have hpos : 0 < c := by
    by_contra hzero
    obtain rfl : c = 0 := by omega
    have hpos := (Cell.Holds.range hc hd).1
    cases down <;> simp at hpos
  have hword : c.toUInt64.toNat = c := by
    rw [Nat.toUInt64, UInt64.toNat_ofNat']
    omega
  obtain ⟨hxfin, hx⟩ := value_toFloat (n := c.toUInt64) (by omega)
  have hsize : e < Float.exactlyRepresentablePowersOfTen.size := by
    change e < 23
    omega
  obtain ⟨hyfin, hy⟩ := value_powerOfTen hsize
  rw [hword] at hx
  obtain ⟨m, i, hm, hux⟩ := exists_unpack hxfin (by rw [hx]; exact_mod_cast hpos)
  obtain ⟨n, j, hn, huy⟩ := exists_unpack hyfin (by rw [hy]; positivity)
  have hcx := canonical_unpack c.toUInt64.toFloat.toModel
  have hcy := canonical_unpack Float.exactlyRepresentablePowersOfTen[e].toModel
  rw [value, hux] at hx
  rw [value, huy] at hy
  rw [hux] at hcx
  rw [huy] at hcy
  rw [← hx, ← hy] at hd
  rw [Float.ofScientific, dif_pos hshort]
  dsimp only
  cases down with
  | true =>
    have hdiv := div_of_holds hc hd
    rw [← hux, ← huy] at hdiv
    exact congrArg (fun u => Float.ofModel (.pack u)) hdiv
  | false =>
    have hmul := mul_of_holds hc (le_target_mul hcx hcy) hd
    rw [← hux, ← huy] at hmul
    exact congrArg (fun u => Float.ofModel (.pack u)) hmul

/-- A decimal that is not too large for a float has no large exponent. -/
theorem exponent_le_of_lt {e : Int} (hc0 : c ≠ 0) (h : (c * 10 ^ e : ℚ) < 2 ^ (1024 : Int)) :
    e ≤ 2 ^ 11 := by
  by_contra hlarge
  have hle : (2 : ℚ) ^ (1024 : Int) ≤ c * 10 ^ e := by
    calc (2 : ℚ) ^ (1024 : Int) ≤ 2 ^ e := zpow_le_zpow_right₀ one_le_two (by omega)
      _ ≤ 10 ^ e := zpow_le_zpow_left₀ (by omega) two_pos.le (by norm_num)
      _ ≤ c * 10 ^ e := le_mul_of_one_le_left (by positivity) (by exact_mod_cast Nat.pos_of_ne_zero hc0)
  exact absurd h hle.not_gt

/-- A decimal that is not too small for a float has no exponent that its digits do not make up for. -/
theorem le_exponent_of_le {e : Int} (h : (2 : ℚ) ^ (-1075 : Int) ≤ c * 10 ^ e) :
    -(2 ^ 11 + c.log2) ≤ e := by
  by_contra hsmall
  have hlog : (c : ℚ) < 2 ^ (c.log2 + 1) := by exact_mod_cast Nat.lt_log2_self
  have hten : (0 : ℚ) < 10 ^ e := by positivity
  have htwo : (10 : ℚ) ^ e ≤ 2 ^ e := by
    have hinv : (2 : ℚ) ^ (-e) ≤ 10 ^ (-e) := zpow_le_zpow_left₀ (by omega) two_pos.le (by norm_num)
    rw [zpow_neg, zpow_neg] at hinv
    exact (inv_le_inv₀ (by positivity) (by positivity)).1 hinv
  have hlt : (c * 10 ^ e : ℚ) < 2 ^ (-1075 : Int) := by
    calc (c * 10 ^ e : ℚ) < 2 ^ (c.log2 + 1) * 10 ^ e := by gcongr
      _ ≤ 2 ^ (c.log2 + 1) * 2 ^ e := by gcongr
      _ = 2 ^ ((c.log2 + 1 : Nat) + e) := by rw [zpow_add₀ two_ne_zero, zpow_natCast]
      _ ≤ 2 ^ (-1075 : Int) := zpow_le_zpow_right₀ one_le_two (by omega)
  exact absurd hlt h.not_gt

/-- Any decimal is read by one operation on whole numbers. -/
theorem ofScientific_long (hc : Canonical (.finite .positive k q hk)) {e : Int}
    (hd : (Cell.of k q).Holds (c * 10 ^ e)) :
    UnpackedFloat.ofScientific .binary64 c e = .finite .positive k q hk := by
  obtain ⟨hpos, hleast, hmost⟩ := Cell.Holds.range hc hd
  have hc0 : c ≠ 0 := by
    rintro rfl
    simp at hpos
  have hlarge : ¬e > 2 ^ 11 := (exponent_le_of_lt hc0 hmost).not_gt
  have hsmall : ¬e < -(2 ^ 11 + c.log2) := (le_exponent_of_le hleast).not_gt
  have hten (n : Nat) : ((10 ^ n : Nat) : ℚ) = 10 ^ (n : Int) := by
    rw [zpow_natCast]
    push_cast
    rfl
  rw [UnpackedFloat.ofScientific, dif_neg hc0, if_neg hlarge, if_neg hsmall]
  split
  · apply mul_of_holds hc
    · rw [target_eq]
      have hbits : 2 ^ 53 ≤ c <<< 53 * 10 ^ e.toNat := by
        rw [Nat.shiftLeft_eq]
        have : 0 < 10 ^ e.toNat := by positivity
        nlinarith [Nat.pos_of_ne_zero hc0]
      have := (Nat.le_log2 (by omega)).2 hbits
      change (-53 : Int) + 0 ≤ max (((c <<< 53 * 10 ^ e.toNat).log2 : Int) + 1 + (-53 + 0) - 53) (-1074)
      omega
    · convert hd using 1
      have hone : (((Sign.positive * Sign.positive).apply 1 : Int) : ℚ) = 1 := rfl
      have hbits : (Format.binary64.mantissaBits : Int) = 53 := rfl
      rw [unpackedValue_mul, Nat.shiftLeft_eq, hone, one_mul, hbits, Nat.cast_mul, hten,
        Int.toNat_of_nonneg ‹0 ≤ e›, Nat.cast_mul]
      have hcancel : ((2 ^ Format.binary64.mantissaBits : Nat) : ℚ) * 2 ^ (-53 + 0 : Int) = 1 := by
        change ((2 ^ 53 : Nat) : ℚ) * 2 ^ (-53 : Int) = 1
        norm_num
      calc (c * (2 ^ Format.binary64.mantissaBits : Nat) * 10 ^ e * 2 ^ (-53 + 0 : Int) : ℚ)
          = c * 10 ^ e * ((2 ^ Format.binary64.mantissaBits : Nat) * 2 ^ (-53 + 0 : Int)) := by ring
        _ = c * 10 ^ e := by rw [hcancel, mul_one]
  · apply div_of_holds hc
    convert hd using 1
    simp only [unpackedValue, Sign.apply, Int.cast_natCast, zpow_zero, mul_one]
    rw [hten, Int.toNat_of_nonneg (by omega), zpow_neg, div_inv_eq_mul]

end

end Interleave.Number

namespace Interleave

open Float.Model Float.Model.UnpackedFloat Shortest Number

/-- A decimal in the cell of a float is read as the float. -/
theorem Decimal.toFloat_of_holds {d : Decimal} {k : Nat} {q : Int} {hk : 0 < k}
    (hc : Canonical (.finite .positive k q hk)) (hd : (Cell.of k q).Holds d.value) :
    d.toFloat = .ofModel (.pack (.finite .positive k q hk)) := by
  obtain ⟨c, e⟩ := d
  have hd : (Cell.of k q).Holds (c * 10 ^ e) := hd
  have hread (down : Bool) (n : Nat) (he : e = if down then -(n : Int) else n) :
      Float.ofScientific c down n = .ofModel (.pack (.finite .positive k q hk)) := by
    by_cases hshort : c < 2 ^ 53 ∧ n ≤ 22
    · apply ofScientific_short hc hshort
      cases down with
      | true => rwa [if_pos rfl, div_eq_mul_inv, ← zpow_natCast, ← zpow_neg, ← show e = -(n : Int) from he]
      | false => rwa [if_neg Bool.false_ne_true, ← zpow_natCast, ← show e = (n : Int) from he]
    · have hpower : (if down then Int.negOfNat n else Int.ofNat n) = e := by
        rw [he]
        cases down
        · rfl
        · exact Int.negOfNat_eq
      rw [Float.ofScientific, dif_neg hshort]
      dsimp only
      rw [hpower, ← ofScientific_long hc hd]
      rfl
  unfold Decimal.toFloat
  split
  · rename_i hneg
    have hneg : e < 0 := hneg
    exact hread true _ (show e = -(e.natAbs : Int) by omega)
  · rename_i hpos
    have hpos : ¬e < 0 := hpos
    exact hread false _ (show e = (e.natAbs : Int) by omega)

end Interleave
