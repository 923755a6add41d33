import Interleave.Proofs.Number.Value

/-!
# Rounding to a neighbouring float

An operation on floats computes a mantissa and what it drops of it as two bits, then rounds. Whatever
the rule for ties, the result is a float next to the exact number: `Rounds q z` says that no finite
float lies strictly between `q` and `z`, on the side of a larger or of a smaller size, and that `z`
keeps the sign of `q`. So a `q` that is a float itself is met exactly (`Rounds.value_eq`).

Results:
* `rounds_mul`, `rounds_div`, `rounds_sub`: products, quotients and differences are rounded.
* `value_ofInt`: integers of at most 53 bits are converted exactly.
-/
namespace Interleave.Number

open Float.Model Float.Model.UnpackedFloat

/-! ## Mantissas with dropped bits -/

/-- What an extended mantissa says of the number `x` that it stands for. -/
structure Brackets (em : ExtendedMantissa) (x : ℚ) : Prop where
  le : (em.mantissa : ℚ) ≤ x
  lt : x < em.mantissa + 1
  eq_iff : x = em.mantissa ↔ em.roundBit = false ∧ em.stickyBit = false

theorem mantissa_accuracy (m : Nat) (acc : Accuracy) :
    (ExtendedMantissa.ofMantissaAndAccuracy m acc).mantissa = m := by
  cases acc with
  | exact => rfl
  | inexact o => cases o <;> rfl

theorem brackets_exact (m : Nat) : Brackets (.ofMantissaAndAccuracy m .exact) m :=
  ⟨le_rfl, by simp [ExtendedMantissa.ofMantissaAndAccuracy], by
    simp [ExtendedMantissa.ofMantissaAndAccuracy]⟩

theorem Brackets.shiftRightOne {em : ExtendedMantissa} {x : ℚ} (h : Brackets em x) :
    Brackets em.shiftRightOne (x / 2) := by
  obtain ⟨hle, hlt, heq⟩ := h
  have hm : (em.mantissa : ℚ) = 2 * (em.mantissa / 2 : Nat) + (em.mantissa % 2 : Nat) := by
    exact_mod_cast (Nat.div_add_mod em.mantissa 2).symm
  have hr : ((em.mantissa % 2 : Nat) : ℚ) ≤ 1 := by
    exact_mod_cast Nat.le_of_lt_succ (Nat.mod_lt _ two_pos)
  have hr0 : (0 : ℚ) ≤ (em.mantissa % 2 : Nat) := Nat.cast_nonneg _
  refine ⟨?_, ?_, ?_⟩ <;> simp only [ExtendedMantissa.shiftRightOne]
  · linarith
  · linarith
  · constructor
    · intro h
      have hz : ((em.mantissa % 2 : Nat) : ℚ) = 0 := by linarith
      have hx : x = em.mantissa := by linarith
      have hz : em.mantissa % 2 = 0 := by exact_mod_cast hz
      simp [hz, heq.1 hx]
    · rintro ⟨hz, hb⟩
      have hz : em.mantissa % 2 = 0 := by simpa using hz
      rw [Bool.or_eq_false_iff] at hb
      rw [heq.2 hb, hm, hz]
      simp

theorem Brackets.shiftRight {em : ExtendedMantissa} {x : ℚ} (h : Brackets em x) (n : Nat) :
    Brackets (em >>> n) (x / 2 ^ n) := by
  change Brackets (n.repeat ExtendedMantissa.shiftRightOne em) _
  induction n with
  | zero => simpa [Nat.repeat] using h
  | succ n ih =>
    rw [pow_succ, ← div_div]
    exact ih.shiftRightOne

/-- Rounding stays on this side of a natural number. -/
theorem Brackets.roundedMantissa_le {em : ExtendedMantissa} {x : ℚ} (h : Brackets em x) {n : Nat}
    (hn : x ≤ n) : em.roundedMantissa ≤ n := by
  have hle : em.mantissa ≤ n := by exact_mod_cast h.le.trans hn
  obtain ⟨m, r, s⟩ := em
  by_cases hx : x = m
  · obtain ⟨hr, hs⟩ := h.eq_iff.1 hx
    simp only at hr hs
    subst hr hs
    exact hle
  · have hlt : (m : ℚ) < n := lt_of_lt_of_le (lt_of_le_of_ne h.le (Ne.symm hx)) hn
    have hlt : m < n := by exact_mod_cast hlt
    cases r <;> cases s <;>
      simp only [ExtendedMantissa.roundedMantissa, ExtendedMantissa.accuracy,
        Accuracy.roundToNearestEven] <;> omega

theorem Brackets.le_roundedMantissa {em : ExtendedMantissa} {x : ℚ} (h : Brackets em x) {n : Nat}
    (hn : n ≤ x) : n ≤ em.roundedMantissa := by
  have hle : n ≤ em.mantissa := by
    have : (n : ℚ) < em.mantissa + 1 := lt_of_le_of_lt hn h.lt
    exact Nat.lt_succ_iff.1 (by exact_mod_cast this)
  obtain ⟨m, r, s⟩ := em
  cases r <;> cases s <;>
    simp only [ExtendedMantissa.roundedMantissa, ExtendedMantissa.accuracy,
      Accuracy.roundToNearestEven] at hle ⊢ <;> omega

/-! ## One rounding -/

theorem target_eq (m : Nat) (e : Int) :
    Format.binary64.targetExponent (totalExponent m e) = max (m.log2 + 1 + e - 53) (-1074) := rfl

/-- The mantissa after a shift by `k` bits and a rounding. -/
def shifted (m : Nat) (acc : Accuracy) (k : Nat) : Nat :=
  (ExtendedMantissa.ofMantissaAndAccuracy m acc >>> k).roundedMantissa

/-- The form of a mantissa of at most 53 bits, or of 2^53, at an exponent. -/
def settle (s : Sign) (r : Nat) (t : Int) : UnpackedFloat :=
  if h : r = 0 then .zero s
  else if r < 2 ^ 53 then .finite s r t (Nat.pos_of_ne_zero h)
  else .finite s (2 ^ 52) (t + 1) (by decide)

theorem shiftToTargetExponent_small {r : Nat} {t : Int} (hr : r < 2 ^ 53) (ht : -1074 ≤ t) :
    shiftToTargetExponent .binary64 r t .exact = (⟨r, false, false⟩, t) := by
  have hlog : r.log2 < 53 := by
    rcases Nat.eq_zero_or_pos r with rfl | hpos
    · decide
    · exact (Nat.log2_lt (by omega)).2 hr
  have hk : (Format.binary64.targetExponent (totalExponent r t) - t).toNat = 0 := by
    rw [target_eq]; omega
  simp [shiftToTargetExponent, shiftToExponent, hk, HShiftRight.hShiftRight, Nat.repeat,
    ExtendedMantissa.ofMantissaAndAccuracy]

theorem shiftToTargetExponent_carry {t : Int} (ht : -1074 ≤ t) :
    shiftToTargetExponent .binary64 (2 ^ 53) t .exact = (⟨2 ^ 52, false, false⟩, t + 1) := by
  have hlog : (2 ^ 53 : Nat).log2 = 53 := Nat.log2_two_pow
  have hk : (Format.binary64.targetExponent (totalExponent (2 ^ 53) t) - t).toNat = 1 := by
    rw [target_eq, hlog]; omega
  simp only [shiftToTargetExponent, shiftToExponent, hk]
  rfl

/-- The second shift of a rounding, which only takes up a carry. -/
theorem settle_eq {s : Sign} {r : Nat} {t : Int} (hr : r ≤ 2 ^ 53) (ht : -1074 ≤ t) :
    settle s r t =
      let p := shiftToTargetExponent .binary64 r t .exact
      if h : p.1.mantissa = 0 then .zero s
      else .finite s p.1.mantissa p.2 (Nat.pos_of_ne_zero h) := by
  rcases hr.lt_or_eq with hlt | rfl
  · simp only [settle, shiftToTargetExponent_small hlt ht, if_pos hlt]
  · simp only [shiftToTargetExponent_carry ht]
    rfl

theorem roundWithAccuracy_eq {s : Sign} {m : Nat} {e t : Int} {acc : Accuracy}
    (ht : Format.binary64.targetExponent (totalExponent m e) = t) (he : e ≤ t)
    (hr : shifted m acc (t - e).toNat ≤ 2 ^ 53) :
    roundWithAccuracy .binary64 s m e acc = settle s (shifted m acc (t - e).toNat) t := by
  have hlo : -1074 ≤ t := by rw [← ht, target_eq]; omega
  have hfirst : shiftToTargetExponent .binary64 m e acc =
      (ExtendedMantissa.ofMantissaAndAccuracy m acc >>> (t - e).toNat, t) := by
    simp only [shiftToTargetExponent, shiftToExponent, ht, Prod.mk.injEq, true_and]
    omega
  rw [settle_eq hr hlo, roundWithAccuracy, hfirst]
  rfl

/-- What one rounding makes of the size `p`: a mantissa `r` at the exponent `t`, on the grid of step
`2^t` as near to `p` as the grid allows. -/
structure Settled (p : ℚ) (r : Nat) (t : Int) : Prop where
  le_carry : r ≤ 2 ^ 53
  full : t = -1074 ∨ 2 ^ 52 ≤ r ∧ (2 : ℚ) ^ (52 + t) ≤ p
  least : -1074 ≤ t
  le_of_le : ∀ n : Nat, p ≤ n * 2 ^ t → r ≤ n
  ge_of_ge : ∀ n : Nat, n * 2 ^ t ≤ p → n ≤ r

/-- A shift to the exponent of 53 bits leaves at most 53 bits. -/
theorem succ_le_shifted {m : Nat} {e t : Int} (ht : m.log2 + 1 + e - 53 ≤ t) :
    m + 1 ≤ 2 ^ 53 * 2 ^ (t - e).toNat := by
  rw [← pow_add]
  exact Nat.lt_log2_self.trans_le (Nat.pow_le_pow_right two_pos (by omega))

/-- A shift to the exponent of 53 bits leaves all of them. -/
theorem shifted_le {m : Nat} {e t : Int} (hm : m ≠ 0) (ht : t = m.log2 + 1 + e - 53) (he : e ≤ t) :
    2 ^ 52 * 2 ^ (t - e).toNat ≤ m := by
  rw [← pow_add, show 52 + (t - e).toNat = m.log2 by omega]
  exact Nat.log2_self_le hm

theorem settled_shifted {m : Nat} {e t : Int} {acc : Accuracy} {x : ℚ}
    (ht : Format.binary64.targetExponent (totalExponent m e) = t) (he : e ≤ t)
    (hx : Brackets (.ofMantissaAndAccuracy m acc) x) :
    Settled (x * 2 ^ e) (shifted m acc (t - e).toNat) t := by
  rw [target_eq] at ht
  have hmx : (m : ℚ) ≤ x := mantissa_accuracy m acc ▸ hx.le
  have hxm : x < m + 1 := mantissa_accuracy m acc ▸ hx.lt
  have hk : (2 : ℚ) ^ (t - e).toNat = 2 ^ t / 2 ^ e := by
    rw [← zpow_natCast, Int.toNat_of_nonneg (by omega), zpow_sub₀ two_ne_zero]
  have hscale (n : ℚ) : n * 2 ^ t / 2 ^ e = n * 2 ^ (t - e).toNat := by rw [hk]; ring
  have hb := hx.shiftRight (t - e).toNat
  have hp : (0 : ℚ) < 2 ^ (t - e).toNat := by positivity
  have h2e : (0 : ℚ) < 2 ^ e := by positivity
  refine ⟨hb.roundedMantissa_le ?_, ?_, by omega, ?_, ?_⟩
  · rw [div_le_iff₀ hp]
    have hfits : (m : ℚ) + 1 ≤ 2 ^ 53 * 2 ^ (t - e).toNat := by
      exact_mod_cast succ_le_shifted (by omega)
    push_cast
    linarith
  · by_cases hsub : t = -1074
    · exact .inl hsub
    · have hm : m ≠ 0 := by rintro rfl; simp at ht; omega
      have hfull : (2 ^ 52 * 2 ^ (t - e).toNat : ℚ) ≤ m := by
        exact_mod_cast shifted_le hm (by omega) he
      have hfull := hfull.trans hmx
      refine .inr ⟨hb.le_roundedMantissa ?_, ?_⟩
      · rw [le_div_iff₀ hp]
        exact_mod_cast hfull
      · rw [hk] at hfull
        calc (2 : ℚ) ^ (52 + t) = 2 ^ 52 * (2 ^ t / 2 ^ e) * 2 ^ e := by
              rw [zpow_add₀ two_ne_zero]; field_simp
          _ ≤ x * 2 ^ e := by gcongr
  · intro n hn
    apply hb.roundedMantissa_le
    rw [div_le_iff₀ hp, ← hscale, le_div_iff₀ h2e]
    exact hn
  · intro n hn
    apply hb.le_roundedMantissa
    rw [le_div_iff₀ hp, ← hscale, div_le_iff₀ h2e]
    exact hn

/-- The size of a finite float: at most 53 bits at an exponent in range. -/
theorem exists_scaled {w : Float} (hw : w.isFinite = true) :
    ∃ (n : Nat) (k : Int), |value w| = n * 2 ^ k ∧ n < 2 ^ 53 ∧ -1074 ≤ k ∧ k ≤ 971 := by
  have hform := finiteForm_unpack hw
  unfold value
  generalize w.toModel.unpack = u at *
  cases hform with
  | zero => exact ⟨0, 0, by simp [unpackedValue], by decide, by decide, by decide⟩
  | @finite s m e h hc => exact ⟨m, e, abs_unpackedValue_finite s m e h, hc.1, hc.2.2⟩

section
variable {p : ℚ} {r n : Nat} {t k : Int}

theorem scaled_shift (h : t ≤ k) : (n * 2 ^ k : ℚ) = (n * 2 ^ (k - t).toNat : Nat) * 2 ^ t := by
  push_cast
  rw [← zpow_natCast, Int.toNat_of_nonneg (by omega), mul_assoc, ← zpow_add₀ two_ne_zero]
  congr 2
  omega

/-- A number of 53 bits at a smaller exponent lies below the grid's first full mantissa. -/
theorem scaled_lt_full (hn : n < 2 ^ 53) (h : k < t) : (n * 2 ^ k : ℚ) < 2 ^ 52 * 2 ^ t := by
  have := scaled_lt_scaled hn (le_refl (2 ^ 52)) h
  exact_mod_cast this

theorem Settled.scaled_le (h : Settled p r t) (hn : n < 2 ^ 53) (hk : -1074 ≤ k)
    (hp : p ≤ n * 2 ^ k) : (r * 2 ^ t : ℚ) ≤ n * 2 ^ k := by
  by_cases htk : t ≤ k
  · rw [scaled_shift htk] at hp ⊢
    have := h.le_of_le _ hp
    gcongr
  · obtain ⟨-, hfull⟩ := h.full.resolve_left (by omega)
    have := scaled_lt_full hn (not_le.1 htk)
    rw [zpow_add₀ two_ne_zero] at hfull
    norm_num at hfull this
    linarith

theorem Settled.le_scaled (h : Settled p r t) (hn : n < 2 ^ 53) (hk : -1074 ≤ k)
    (hp : n * 2 ^ k ≤ p) : (n * 2 ^ k : ℚ) ≤ r * 2 ^ t := by
  by_cases htk : t ≤ k
  · rw [scaled_shift htk] at hp ⊢
    have := h.ge_of_ge _ hp
    gcongr
  · obtain ⟨hfull, -⟩ := h.full.resolve_left (by omega)
    have hfull : (2 ^ 52 : ℚ) ≤ r := by exact_mod_cast hfull
    calc (n * 2 ^ k : ℚ) ≤ 2 ^ 52 * 2 ^ t := (scaled_lt_full hn (not_le.1 htk)).le
      _ ≤ r * 2 ^ t := by gcongr

end

theorem isFinite_settle (s : Sign) (r : Nat) (t : Int) : (settle s r t).isFinite = true := by
  unfold settle
  split <;> [rfl; split <;> rfl]

theorem unpackedValue_settle {s : Sign} {r : Nat} {t : Int} (hr : r ≤ 2 ^ 53) :
    unpackedValue (settle s r t) = s.apply r * 2 ^ t := by
  unfold settle
  split
  · rename_i h
    cases s <;> simp [h, unpackedValue, Sign.apply]
  · split
    · rfl
    · have hr : r = 2 ^ 53 := by omega
      subst hr
      cases s <;> simp only [unpackedValue, Sign.apply] <;> push_cast <;>
        rw [zpow_add_one₀ two_ne_zero] <;> ring

/-- A rounding that stays below a float is a float itself. -/
theorem canonical_settle {p : ℚ} {s : Sign} {r n : Nat} {t k : Int} (h : Settled p r t)
    (hn : n < 2 ^ 53) (hlo : -1074 ≤ k) (hk : k ≤ 971) (hle : (r * 2 ^ t : ℚ) ≤ n * 2 ^ k) :
    Canonical (settle s r t) := by
  have hfit (m : Nat) (u : Int) (hm : 2 ^ 52 ≤ m) (hmu : (m * 2 ^ u : ℚ) ≤ n * 2 ^ k) : u ≤ k :=
    not_lt.1 fun hlt => absurd hmu (not_le.2 (scaled_lt_scaled hn hm hlt))
  unfold settle
  split
  · trivial
  · split
    · rename_i hr
      rcases h.full with rfl | ⟨hfull, -⟩
      · exact ⟨hr, .inr rfl, le_rfl, by omega⟩
      · exact ⟨hr, .inl hfull, h.least, (hfit r t hfull hle).trans hk⟩
    · have hr : r = 2 ^ 53 := by have := h.le_carry; omega
      subst hr
      have hcarry : ((2 ^ 52 : Nat) * 2 ^ (t + 1) : ℚ) ≤ n * 2 ^ k := by
        rw [zpow_add_one₀ two_ne_zero]
        push_cast at hle ⊢
        linarith
      have := hfit (2 ^ 52) (t + 1) le_rfl hcarry
      exact ⟨by decide, .inl le_rfl, by have := h.least; omega, by omega⟩

/-- What is too large for a float is packed as an infinity. -/
theorem unpack_pack_settle {p : ℚ} {s : Sign} {r : Nat} {t : Int} (h : Settled p r t) :
    (Float.Model.pack (settle s r t)).unpack = settle s r t ∨
      (Float.Model.pack (settle s r t)).unpack = .infinity s := by
  have hlarge (m : Nat) (e : Int) (hm : 0 < m) (he : 971 < e) :
      (Float.Model.pack (.finite s m e hm)).unpack = .infinity s := by
    have hfit : 2 ^ 11 ≤ (e + Format.binary64.exponentBias + (52 : Nat)).toNat + 1 := by
      change 2 ^ 11 ≤ (e + 1023 + 52).toNat + 1
      omega
    change UnpackedFloat.unpack .binary64 (UnpackedFloat.pack .binary64 (.finite s m e hm)) = _
    simp only [UnpackedFloat.pack, if_pos hfit]
    cases s <;> rfl
  unfold settle
  split
  · exact .inl (unpack_pack trivial)
  · split
    · rename_i hr
      by_cases ht : t ≤ 971
      · refine .inl (unpack_pack ⟨hr, ?_, h.least, ht⟩)
        exact h.full.symm.imp_left And.left
      · exact .inr (hlarge r t _ (not_le.1 ht))
    · by_cases ht : t + 1 ≤ 971
      · exact .inl (unpack_pack ⟨by decide, .inl le_rfl, by have := h.least; omega, ht⟩)
      · exact .inr (hlarge _ _ _ (not_le.1 ht))

/-! ## Rounded numbers -/

/-- `z` is `q` rounded to a neighbouring float, or to the infinity of its sign where that is too
large. -/
structure Rounds (q : ℚ) (z : Float) : Prop where
  finite : ∀ w : Float, w.isFinite = true → |q| ≤ |value w| → z.isFinite = true
  infinite : z.isFinite = false → z.toModel.unpack = .infinity (if q < 0 then .negative else .positive)
  le : ∀ w : Float, w.isFinite = true → |q| ≤ |value w| → |value z| ≤ |value w|
  ge : z.isFinite = true → ∀ w : Float, w.isFinite = true → |value w| ≤ |q| → |value w| ≤ |value z|
  nonneg : 0 ≤ q → 0 ≤ value z
  nonpos : q ≤ 0 → value z ≤ 0

/-- A number that is a float is met exactly. -/
theorem Rounds.value_eq {q : ℚ} {w z : Float} (h : Rounds q z) (hw : w.isFinite = true)
    (hq : value w = q) : z.isFinite = true ∧ value z = q := by
  have hfin := h.finite w hw (by rw [hq])
  have habs : |value z| = |q| :=
    le_antisymm (hq ▸ h.le w hw (by rw [hq])) (hq ▸ h.ge hfin w hw (by rw [hq]))
  refine ⟨hfin, ?_⟩
  rcases le_total 0 q with hs | hs
  · rwa [abs_of_nonneg (h.nonneg hs), abs_of_nonneg hs] at habs
  · rwa [abs_of_nonpos (h.nonpos hs), abs_of_nonpos hs, neg_inj] at habs

section
variable {p : ℚ} {r : Nat} {t : Int}

theorem abs_apply_one_mul (hp : 0 ≤ p) (s : Sign) : |((s.apply 1 : Int) : ℚ) * p| = p := by
  cases s <;> simp [Sign.apply, abs_of_nonneg hp]

/-- Below a float, a rounding is packed as it is, and stays below. -/
theorem Settled.canonical (h : Settled p r t) (s : Sign) {w : Float} (hw : w.isFinite = true)
    (hle : p ≤ |value w|) : Canonical (settle s r t) ∧ (r * 2 ^ t : ℚ) ≤ |value w| := by
  obtain ⟨n, k, hnk, hn, hlo, hhi⟩ := exists_scaled hw
  rw [hnk] at hle ⊢
  have hscaled := h.scaled_le hn hlo hle
  exact ⟨canonical_settle h hn hlo hhi hscaled, hscaled⟩

theorem Settled.abs_value (h : Settled p r t) (s : Sign) :
    |unpackedValue (settle s r t)| = r * 2 ^ t := by
  rw [unpackedValue_settle h.le_carry, abs_mul, abs_apply, abs_of_pos (by positivity)]

/-- An infinity counts as 0. -/
theorem Settled.value_cases (h : Settled p r t) (s : Sign) :
    value (.ofModel (.pack (settle s r t))) = s.apply r * 2 ^ t ∨
      value (.ofModel (.pack (settle s r t))) = 0 := by
  rcases unpack_pack_settle (s := s) h with hu | hu <;> rw [value, hu]
  · exact .inl (unpackedValue_settle h.le_carry)
  · exact .inr rfl

theorem Settled.eq_zero (h : Settled p r t) (hp : p ≤ 0) : r = 0 :=
  Nat.le_zero.1 (h.le_of_le 0 (by simpa using hp))

theorem Settled.rounds (h : Settled p r t) (hp : 0 ≤ p) (s : Sign) :
    Rounds (s.apply 1 * p) (.ofModel (.pack (settle s r t))) := by
  refine ⟨?_, ?_, ?_, ?_, ?_, ?_⟩
  · intro w hw hle
    rw [abs_apply_one_mul hp] at hle
    change (Float.Model.pack (settle s r t)).unpack.isFinite = true
    rw [unpack_pack (h.canonical s hw hle).1]
    exact isFinite_settle s r t
  · intro hz
    change (Float.Model.pack (settle s r t)).unpack.isFinite = false at hz
    change (Float.Model.pack (settle s r t)).unpack = _
    rcases unpack_pack_settle (s := s) h with hu | hu
    · rw [hu, isFinite_settle] at hz
      cases hz
    · have hpos : p ≠ 0 := by
        rintro rfl
        rw [h.eq_zero le_rfl] at hu
        cases (unpack_pack (u := .zero s) trivial).symm.trans hu
      rw [hu]
      cases s with
      | positive => simp [Sign.apply, hp]
      | negative => simp [Sign.apply, lt_of_le_of_ne hp hpos.symm]
  · intro w hw hle
    rw [abs_apply_one_mul hp] at hle
    rw [value_ofModel_pack (h.canonical s hw hle).1, h.abs_value]
    exact (h.canonical s hw hle).2
  · intro hz w hw hle
    rw [abs_apply_one_mul hp] at hle
    change (Float.Model.pack (settle s r t)).unpack.isFinite = true at hz
    change _ ≤ |unpackedValue (Float.Model.pack (settle s r t)).unpack|
    rcases unpack_pack_settle (s := s) h with hu | hu
    · obtain ⟨n, k, hnk, hn, hlo, -⟩ := exists_scaled hw
      rw [hnk] at hle ⊢
      rw [hu, h.abs_value]
      exact h.le_scaled hn hlo hle
    · rw [hu] at hz
      cases hz
  · intro hs
    rcases h.value_cases s with hv | hv <;> rw [hv]
    cases s with
    | positive => simp only [Sign.apply]; positivity
    | negative => simp [h.eq_zero (by simpa [Sign.apply] using hs), Sign.apply]
  · intro hs
    rcases h.value_cases s with hv | hv <;> rw [hv]
    cases s with
    | positive => simp [h.eq_zero (by simpa [Sign.apply] using hs), Sign.apply]
    | negative =>
      have : (0 : ℚ) ≤ r * 2 ^ t := by positivity
      simpa [Sign.apply] using this

end

theorem rounds_roundWithAccuracy {s : Sign} {m : Nat} {e : Int} {acc : Accuracy} {x : ℚ}
    (he : e ≤ Format.binary64.targetExponent (totalExponent m e))
    (hx : Brackets (.ofMantissaAndAccuracy m acc) x) (hx0 : 0 ≤ x) :
    Rounds (s.apply 1 * (x * 2 ^ e)) (.ofModel (.pack (roundWithAccuracy .binary64 s m e acc))) := by
  have h := settled_shifted rfl he hx
  rw [roundWithAccuracy_eq rfl he h.le_carry]
  exact h.rounds (by positivity) s

/-! ## Operations -/

theorem rounds_zero (s : Sign) : Rounds 0 (.ofModel (.pack (.zero s))) := by
  have h : value (.ofModel (.pack (.zero s))) = 0 := value_ofModel_pack trivial
  have hf : (Float.ofModel (.pack (.zero s))).isFinite = true := by cases s <;> rfl
  constructor <;> simp [h, hf]

theorem cast_apply (s : Sign) (m : Nat) : ((s.apply m : Int) : ℚ) = s.apply 1 * m := by
  cases s <;> simp [Sign.apply]

theorem apply_mul (s t : Sign) : (s * t).apply 1 = s.apply 1 * t.apply 1 := by
  cases s <;> cases t <;> rfl

theorem apply_div (s t : Sign) : (s / t).apply 1 = s.apply 1 * t.apply 1 := by
  cases s <;> cases t <;> rfl

/-- The product of two mantissas fills the 53 bits, or lies below the smallest exponent. -/
theorem le_target_mul {s t : Sign} {m n : Nat} {e f : Int} {h : 0 < m} {k : 0 < n}
    (cx : Canonical (.finite s m e h)) (cy : Canonical (.finite t n f k)) :
    e + f ≤ Format.binary64.targetExponent (totalExponent (m * n) (e + f)) := by
  rw [target_eq]
  obtain ⟨-, hm, -, -⟩ := cx
  obtain ⟨-, hn, -, -⟩ := cy
  by_cases hsub : e = -1074 ∧ f = -1074
  · omega
  · have hle : 2 ^ 52 ≤ m * n := by
      rcases hm with hm | hm
      · exact hm.trans (Nat.le_mul_of_pos_right m k)
      · have hn := hn.resolve_right fun hf => hsub ⟨hm, hf⟩
        exact hn.trans (Nat.le_mul_of_pos_left n h)
    have := (Nat.le_log2 (by positivity)).2 hle
    omega

theorem unpackedValue_mul {s t : Sign} {m n : Nat} {e f : Int} {h : 0 < m} {k : 0 < n} :
    unpackedValue (.finite s m e h) * unpackedValue (.finite t n f k) =
      (s * t).apply 1 * ((m * n : Nat) * 2 ^ (e + f)) := by
  rw [unpackedValue, unpackedValue, cast_apply, cast_apply t, apply_mul, zpow_add₀ two_ne_zero]
  push_cast
  ring

theorem rounds_mul {x y : Float} (hx : x.isFinite = true) (hy : y.isFinite = true) :
    Rounds (value x * value y) (x * y) := by
  change Rounds _ (.ofModel (.pack (UnpackedFloat.mul .binary64 x.toModel.unpack y.toModel.unpack)))
  have fx := finiteForm_unpack hx
  have fy := finiteForm_unpack hy
  rw [value, value]
  generalize x.toModel.unpack = u at *
  generalize y.toModel.unpack = v at *
  cases fx with
  | zero s =>
    cases fy with
    | zero t => exact (zero_mul (0 : ℚ)).symm ▸ rounds_zero (s * t)
    | @finite t n f k _ => exact (zero_mul (unpackedValue (.finite t n f k))).symm ▸ rounds_zero (s * t)
  | @finite s m e h cx =>
    cases fy with
    | zero t => exact (mul_zero (unpackedValue (.finite s m e h))).symm ▸ rounds_zero (s * t)
    | @finite t n f k cy =>
      rw [unpackedValue_mul]
      exact rounds_roundWithAccuracy (le_target_mul cx cy) (brackets_exact (m * n)) (by positivity)

/-! ### Quotients -/

theorem div_eq_quotient_add (a : Nat) {b : Nat} (hb : 0 < b) :
    (a : ℚ) / b = (a / b : Nat) + (a % b : Nat) / b := by
  have hdivmod : (a : ℚ) = b * (a / b : Nat) + (a % b : Nat) := by
    exact_mod_cast (Nat.div_add_mod a b).symm
  have hb : (b : ℚ) ≠ 0 := by positivity
  field_simp
  linarith

theorem brackets_fraction (a : Nat) {b : Nat} (hb : 0 < b) :
    Brackets (.ofMantissaAndAccuracy (a / b) (accuracyOfFraction (a % b) b)) (a / b : ℚ) := by
  have hq := div_eq_quotient_add a hb
  have hb0 : (0 : ℚ) < b := by exact_mod_cast hb
  have hlt : ((a % b : Nat) : ℚ) / b < 1 := by
    rw [div_lt_one hb0]
    exact_mod_cast Nat.mod_lt a hb
  by_cases hr : a % b = 0
  · have hem : accuracyOfFraction (a % b) b = .exact := by simp [accuracyOfFraction, hr]
    rw [hem, hq, hr]
    simpa using brackets_exact (a / b)
  · have hpos : (0 : ℚ) < (a % b : Nat) / b := by
      have : (0 : ℚ) < (a % b : Nat) := by exact_mod_cast Nat.pos_of_ne_zero hr
      positivity
    have hem : accuracyOfFraction (a % b) b = .inexact (compare (2 * (a % b)) b) := by
      simp [accuracyOfFraction, hr]
    rw [hem, hq]
    cases compare (2 * (a % b)) b <;> constructor <;>
      simp only [ExtendedMantissa.ofMantissaAndAccuracy] <;> first | linarith | simp [hpos.ne']

/-- Division takes an exponent so small that the quotient of the mantissas has 53 bits, or the smallest. -/
theorem quotientExponent_le (m n : Nat) (e f : Int) :
    min (e - f) (Format.binary64.targetExponent (totalExponent m e - totalExponent n f)) ≤
      max (m.log2 - n.log2 + (e - f) - 53) (-1074) := by
  refine (min_le_right _ _).trans (le_of_eq ?_)
  change max ((m.log2 : Int) + 1 + e - (n.log2 + 1 + f) - 53) (-1074) = _
  omega

/-- The quotient of two mantissas, shifted as division shifts it, fills the 53 bits, or lies at the
smallest exponent. -/
theorem le_target_div {m n : Nat} {d t : Int} (hm : 0 < m) (hn : 0 < n) (htd : t ≤ d)
    (ht : t ≤ max (m.log2 - n.log2 + d - 53) (-1074)) :
    t ≤ Format.binary64.targetExponent (totalExponent (m <<< (d - t).toNat / n) t) := by
  rw [target_eq]
  by_cases hsub : t ≤ -1074
  · omega
  · have hfull : 2 ^ 52 ≤ m <<< (d - t).toNat / n := by
      rw [Nat.le_div_iff_mul_le hn, Nat.shiftLeft_eq]
      calc 2 ^ 52 * n ≤ 2 ^ 52 * 2 ^ (n.log2 + 1) := Nat.mul_le_mul_left _ Nat.lt_log2_self.le
        _ = 2 ^ (52 + (n.log2 + 1)) := (pow_add ..).symm
        _ ≤ 2 ^ (m.log2 + (d - t).toNat) := Nat.pow_le_pow_right two_pos (by omega)
        _ = 2 ^ m.log2 * 2 ^ (d - t).toNat := pow_add ..
        _ ≤ m * 2 ^ (d - t).toNat := Nat.mul_le_mul_right _ (Nat.log2_self_le hm.ne')
    have := (Nat.le_log2 (by omega)).2 hfull
    omega

/-- The exponent of a quotient is the difference, or smaller if the mantissa would not fill its bits:
then it is shifted up first. -/
theorem unpackedValue_div {s t : Sign} {m n : Nat} {e f u : Int} {h : 0 < m} {k : 0 < n}
    (hu : u ≤ e - f) :
    unpackedValue (.finite s m e h) / unpackedValue (.finite t n f k) =
      (s / t).apply 1 * (((m <<< (e - f - u).toNat : Nat) : ℚ) / n * 2 ^ u) := by
  have hshift : ((m <<< (e - f - u).toNat : Nat) : ℚ) * 2 ^ u = m * 2 ^ e / 2 ^ f := by
    rw [Nat.shiftLeft_eq]
    push_cast
    rw [← zpow_natCast, Int.toNat_of_nonneg (by omega), mul_assoc, ← zpow_add₀ two_ne_zero,
      show e - f - u + u = e - f by omega, zpow_sub₀ two_ne_zero, mul_div_assoc]
  have ht : (t.apply 1 : ℚ) * t.apply 1 = 1 := by cases t <;> simp [Sign.apply]
  have ht0 : (t.apply 1 : ℚ) ≠ 0 := left_ne_zero_of_mul_eq_one ht
  have hn0 : (n : ℚ) ≠ 0 := by positivity
  rw [unpackedValue, unpackedValue, cast_apply, cast_apply t, apply_div, div_mul_eq_mul_div, hshift]
  field_simp
  push_cast
  rw [mul_left_comm, ht, mul_one]

theorem rounds_div {x y : Float} (hx : x.isFinite = true) (hy : y.isFinite = true)
    (hy0 : value y ≠ 0) : Rounds (value x / value y) (x / y) := by
  change Rounds _ (.ofModel (.pack (UnpackedFloat.div .binary64 x.toModel.unpack y.toModel.unpack)))
  have fx := finiteForm_unpack hx
  have fy := finiteForm_unpack hy
  rw [value] at hy0
  rw [value, value]
  generalize x.toModel.unpack = u at *
  generalize y.toModel.unpack = v at *
  cases fy with
  | zero t => exact absurd rfl hy0
  | @finite t n f k _ =>
    cases fx with
    | zero s => exact (zero_div (unpackedValue (.finite t n f k))).symm ▸ rounds_zero (s / t)
    | @finite s m e h _ =>
      let T := min (e - f)
        (Format.binary64.targetExponent (totalExponent m e - totalExponent n f))
      rw [unpackedValue_div (min_le_left _ _ : T ≤ e - f)]
      exact rounds_roundWithAccuracy
        (le_target_div h k (min_le_left _ _) (quotientExponent_le m n e f))
        (brackets_fraction _ k) (by positivity)

/-! ### Integers -/

theorem log2_mul_two_pow {m : Nat} (hm : 0 < m) (j : Nat) : (m * 2 ^ j).log2 = m.log2 + j := by
  rw [Nat.log2_eq_iff (by positivity)]
  constructor
  · rw [pow_add]
    exact Nat.mul_le_mul_right _ (Nat.log2_self_le hm.ne')
  · rw [add_right_comm, pow_add]
    exact Nat.mul_lt_mul_of_pos_right Nat.lt_log2_self (by positivity)

theorem rounds_round (s : Sign) {m : Nat} (hm : 0 < m) (e : Int) :
    Rounds (s.apply 1 * (m * 2 ^ e)) (.ofModel (.pack (UnpackedFloat.round .binary64 s m e))) := by
  let t := Format.binary64.targetExponent (totalExponent m e)
  let j := (e - t).toNat
  have ht : t = max ((m.log2 : Int) + 1 + e - 53) (-1074) := target_eq m e
  have hle : e - j ≤ Format.binary64.targetExponent (totalExponent (m <<< j) (e - j)) := by
    rw [target_eq, Nat.shiftLeft_eq, log2_mul_two_pow hm]
    push_cast
    omega
  have hv : (m * 2 ^ e : ℚ) = (m <<< j : Nat) * 2 ^ (e - j) := by
    rw [Nat.shiftLeft_eq]
    push_cast
    rw [← zpow_natCast, mul_assoc, ← zpow_add₀ two_ne_zero, add_sub_cancel]
  rw [hv]
  exact rounds_roundWithAccuracy hle (brackets_exact (m <<< j)) (by positivity)

theorem rounds_normalize (k e : Int) :
    Rounds (k * 2 ^ e) (.ofModel (.pack (UnpackedFloat.normalize .binary64 k e .positive))) := by
  unfold UnpackedFloat.normalize
  rcases lt_trichotomy k 0 with hk | rfl | hk
  · rw [Int.compare_eq_lt.2 hk]
    have := rounds_round .negative (m := (-k).toNat) (by omega) e
    have hcast : ((-k).toNat : ℚ) = -k := by exact_mod_cast Int.toNat_of_nonneg (by omega : 0 ≤ -k)
    simpa [Sign.apply, hcast] using this
  · rw [Int.cast_zero, zero_mul]
    exact rounds_zero .positive
  · rw [Int.compare_eq_gt.2 hk]
    have := rounds_round .positive (m := k.toNat) (by omega) e
    have hcast : (k.toNat : ℚ) = k := by exact_mod_cast Int.toNat_of_nonneg hk.le
    simpa [Sign.apply, hcast] using this

theorem rounds_toFloat (n : UInt64) : Rounds n.toNat n.toFloat := by
  change Rounds _ (.ofModel (.pack (UnpackedFloat.normalize .binary64 (n.toNat : Int) 0 .positive)))
  simpa using rounds_normalize n.toNat 0

/-! ### Differences -/

theorem rounds_self {z : Float} (h : z.isFinite = true) : Rounds (value z) z where
  finite _ _ _ := h
  infinite hz := by rw [h] at hz; cases hz
  le _ _ hle := hle
  ge _ _ _ hle := hle
  nonneg := id
  nonpos := id

/-- A form that a float can have is met exactly. -/
theorem rounds_pack {u : UnpackedFloat} (hc : Canonical u) (hf : u.isFinite = true) :
    Rounds (unpackedValue u) (.ofModel (.pack u)) := by
  rw [← value_ofModel_pack hc]
  exact rounds_self ((isFinite_ofModel_pack hc).trans hf)

/-- A mantissa shifted to a smaller exponent stands for the same number. -/
theorem unpackedValue_shift {s : Sign} {m : Nat} {e t : Int} {h : 0 < m} (ht : t ≤ e) :
    unpackedValue (.finite s m e h) = s.apply (m <<< (e - t).toNat : Nat) * 2 ^ t := by
  have hshift : (m : ℚ) * 2 ^ e = (m <<< (e - t).toNat : Nat) * 2 ^ t := by
    rw [Nat.shiftLeft_eq]
    exact scaled_shift ht
  rw [unpackedValue, cast_apply, cast_apply s, mul_assoc, mul_assoc, hshift]

theorem rounds_sub {x y : Float} (hx : x.isFinite = true) (hy : y.isFinite = true) :
    Rounds (value x - value y) (x - y) := by
  change Rounds _ (.ofModel (.pack (UnpackedFloat.sub .binary64 x.toModel.unpack y.toModel.unpack)))
  have fx := finiteForm_unpack hx
  have fy := finiteForm_unpack hy
  rw [value, value]
  generalize x.toModel.unpack = u at *
  generalize y.toModel.unpack = v at *
  cases fx with
  | zero s =>
    cases fy with
    | zero t =>
      rw [show unpackedValue (.zero s) - unpackedValue (.zero t) = 0 from sub_zero 0]
      cases s <;> cases t <;> exact rounds_zero _
    | @finite t n f k cy =>
      rw [show unpackedValue (.zero s) - unpackedValue (.finite t n f k) =
        unpackedValue (.finite (-t) n f k) by cases t <;> simp [unpackedValue, Sign.apply]]
      exact rounds_pack cy rfl
  | @finite s m e h cx =>
    cases fy with
    | zero t => exact (sub_zero (unpackedValue (.finite s m e h))).symm ▸ rounds_pack cx rfl
    | @finite t n f k _ =>
      rw [unpackedValue_shift (min_le_left e f), unpackedValue_shift (min_le_right e f), ← sub_mul]
      have := rounds_normalize
        (s.apply (m <<< (e - min e f).toNat : Nat) - t.apply (n <<< (f - min e f).toNat : Nat)) (min e f)
      push_cast at this
      exact this

theorem exists_float {u : UnpackedFloat} (hc : Canonical u) (hf : u.isFinite = true) :
    ∃ w : Float, w.isFinite = true ∧ value w = unpackedValue u :=
  ⟨.ofModel (.pack u), (isFinite_ofModel_pack hc).trans hf, value_ofModel_pack hc⟩

/-- A number of at most 53 bits at an exponent in range is a float. -/
theorem exists_value_eq {n : Nat} {k : Int} (hn : n < 2 ^ 53) (hlo : -1074 ≤ k) (hhi : k ≤ 971) :
    ∃ w : Float, w.isFinite = true ∧ value w = n * 2 ^ k := by
  rcases Nat.eq_zero_or_pos n with rfl | hpos
  · simpa [unpackedValue] using exists_float (u := .zero .positive) trivial rfl
  · -- shift to a full mantissa, or as far as the smallest exponent allows
    obtain ⟨j, hj, hfull⟩ : ∃ j : Nat, n.log2 + j ≤ 52 ∧ -1074 ≤ k - j ∧
        (n.log2 + j = 52 ∨ k - j = -1074) := by
      have hlog : n.log2 < 53 := (Nat.log2_lt hpos.ne').2 hn
      exact ⟨min (52 - n.log2) (k + 1074).toNat, by omega, by omega, by omega⟩
    have hlog := log2_mul_two_pow hpos j
    have hc : Canonical (.finite .positive (n * 2 ^ j) (k - j) (by positivity)) := by
      refine ⟨?_, ?_, hfull.1, by omega⟩
      · exact (Nat.log2_lt (by positivity)).1 (by omega)
      · exact hfull.2.imp_left fun h => (Nat.le_log2 (by positivity)).1 (by omega)
    obtain ⟨w, hw, hv⟩ := exists_float hc rfl
    refine ⟨w, hw, ?_⟩
    rw [hv, unpackedValue, Sign.apply]
    push_cast
    rw [← zpow_natCast, mul_assoc, ← zpow_add₀ two_ne_zero, add_sub_cancel]

theorem value_toFloat {n : UInt64} (hn : n.toNat < 2 ^ 53) :
    n.toFloat.isFinite = true ∧ value n.toFloat = n.toNat := by
  obtain ⟨w, hw, hwn⟩ := exists_value_eq (k := 0) hn (by decide) (by decide)
  exact (rounds_toFloat n).value_eq hw (by simpa using hwn)

/-- Naturals reach `Float` through a product with this 1. -/
theorem value_one : value (.ofBits 0x3FF0000000000000) = 1 := by
  change unpackedValue (.finite .positive (2 ^ 52) (-52) (by decide)) = 1
  norm_num [unpackedValue, Sign.apply]

theorem value_ofNat {n : Nat} (hn : n < 2 ^ 53) :
    (Float.ofNat n).isFinite = true ∧ value (Float.ofNat n) = n := by
  have hword : n.toUInt64.toNat = n := by
    rw [Nat.toUInt64, UInt64.toNat_ofNat']
    omega
  have hdef : Float.ofNat n = n.toUInt64.toFloat * .ofBits 0x3FF0000000000000 := by
    change Float.ofScientific n false 0 = _
    rw [Float.ofScientific, dif_pos ⟨hn, by decide⟩]
    rfl
  obtain ⟨hfin, hval⟩ := value_toFloat (n := n.toUInt64) (by omega)
  have hmul := rounds_mul hfin (rfl : (Float.ofBits 0x3FF0000000000000).isFinite = true)
  rw [value_one, mul_one] at hmul
  rw [hword] at hval
  rw [hdef, ← hval]
  exact hmul.value_eq hfin rfl

theorem value_ofInt {n : Int} (hn : n.natAbs < 2 ^ 53) :
    (Float.ofInt n).isFinite = true ∧ value (Float.ofInt n) = n := by
  cases n with
  | ofNat n => exact value_ofNat hn
  | negSucc n =>
    obtain ⟨hfin, hval⟩ := value_ofNat (n := n + 1) (by simpa using hn)
    change (-Float.ofNat (n + 1)).isFinite = true ∧ value (-Float.ofNat (n + 1)) = _
    rw [isFinite_neg, value_neg, hval, Int.negSucc_eq]
    exact ⟨hfin, by push_cast; rfl⟩

end Interleave.Number
