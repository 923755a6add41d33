import Interleave.Proofs.Number.Digits
import Interleave.Proofs.Number.Value

/-!
# The shortest decimal tells its number

The numbers that round to one float form a cell around it, and the cells of different floats have no
number in common: where two of them meet, the end belongs to at most one. Every cell is wider than one
step of a grid of 17 digits, so the search for the shortest decimal finds one inside the cell, and the
decimal belongs to no other float.

Results:
* `Shortest.holds_decimal`: the shortest decimal lies in the cell of its number.
* `Shortest.Cell.not_holds_of_lt`: cells have no number in common.
* `Shortest.decimal_value_inj`: different floats have different decimals.
-/
namespace Interleave.Shortest

open Float.Model Number

/-! ## Cells and grids -/

/-- A number lies in a cell. -/
def Cell.Holds (cell : Cell) (x : ℚ) : Prop :=
  if cell.closed then cell.low * 2 ^ cell.exponent ≤ x ∧ x ≤ cell.high * 2 ^ cell.exponent
  else cell.low * 2 ^ cell.exponent < x ∧ x < cell.high * 2 ^ cell.exponent

theorem Cell.Holds.le {cell : Cell} {x : ℚ} (h : cell.Holds x) :
    cell.low * 2 ^ cell.exponent ≤ x ∧ x ≤ cell.high * 2 ^ cell.exponent := by
  unfold Holds at h
  split at h
  · exact h
  · exact ⟨h.1.le, h.2.le⟩

theorem Cell.holds_of_lt {cell : Cell} {x : ℚ} (hlow : cell.low * 2 ^ cell.exponent < x)
    (hhigh : x < cell.high * 2 ^ cell.exponent) : cell.Holds x := by
  unfold Holds
  split
  · exact ⟨hlow.le, hhigh.le⟩
  · exact ⟨hlow, hhigh⟩

theorem cast_pow_toNat {b : ℚ} (hb : b ≠ 0) (e : Int) : b ^ e.toNat = b ^ (-e).toNat * b ^ e := by
  rw [← zpow_natCast, ← zpow_natCast, ← zpow_add₀ hb]
  congr 1
  omega

/-- Both units of a scale are multiples of one number. -/
theorem Scale.exists_unit (exponent k : Int) : ∃ unit : ℚ, 0 < unit ∧
    ((Scale.of exponent k).up : ℚ) = unit * 2 ^ exponent ∧
      ((Scale.of exponent k).down : ℚ) = unit * 10 ^ k := by
  refine ⟨2 ^ (-exponent).toNat * 10 ^ (-k).toNat, by positivity, ?_, ?_⟩
  · change ((2 ^ exponent.toNat * 10 ^ (-k).toNat : ℕ) : ℚ) = _
    push_cast
    rw [cast_pow_toNat (by norm_num) exponent]
    ring
  · change ((2 ^ (-exponent).toNat * 10 ^ k.toNat : ℕ) : ℚ) = _
    push_cast
    rw [cast_pow_toNat (by norm_num) k]
    ring

theorem Scale.le_iff (exponent k : Int) (a c : Nat) :
    a * (Scale.of exponent k).up ≤ c * (Scale.of exponent k).down ↔
      (a * 2 ^ exponent : ℚ) ≤ c * 10 ^ k := by
  obtain ⟨unit, hunit, hup, hdown⟩ := Scale.exists_unit exponent k
  rw [← Nat.cast_le (α := ℚ), Nat.cast_mul, Nat.cast_mul, hup, hdown, mul_left_comm,
    mul_left_comm (c : ℚ), mul_le_mul_iff_right₀ hunit]

theorem Scale.ge_iff (exponent k : Int) (a c : Nat) :
    c * (Scale.of exponent k).down ≤ a * (Scale.of exponent k).up ↔
      (c * 10 ^ k : ℚ) ≤ a * 2 ^ exponent := by
  obtain ⟨unit, hunit, hup, hdown⟩ := Scale.exists_unit exponent k
  rw [← Nat.cast_le (α := ℚ), Nat.cast_mul, Nat.cast_mul, hup, hdown, mul_left_comm,
    mul_left_comm (a : ℚ), mul_le_mul_iff_right₀ hunit]

/-- The test on natural numbers decides whether a grid point lies in the cell. -/
theorem Cell.contains_iff (cell : Cell) (k : Int) (c : Nat) :
    cell.contains (Scale.of cell.exponent k) c = true ↔ cell.Holds (c * 10 ^ k) := by
  unfold contains Holds
  dsimp only
  split
  · rw [Bool.and_eq_true, decide_eq_true_iff, decide_eq_true_iff, Scale.le_iff, Scale.ge_iff]
  · rw [Bool.and_eq_true, decide_eq_true_iff, decide_eq_true_iff, ← not_le, ← not_le,
      Scale.ge_iff, Scale.le_iff, not_le, not_le]

/-- A grid point that is found lies in the cell. -/
theorem Cell.holds_of_onGrid {cell : Cell} {tie : Tie} {k : Int} {c : Nat}
    (h : cell.onGrid tie (Scale.of cell.exponent k) = some c) : cell.Holds (c * 10 ^ k) := by
  rw [← Cell.contains_iff]
  unfold onGrid at h
  dsimp only at h
  split at h
  · cases h
  · cases h
    assumption
  · cases h
    assumption
  · split at h
    · cases h
      assumption
    · split at h
      · cases h
        assumption
      · split at h
        · cases h
          assumption
        · split at h <;> cases h <;> assumption

/-- On a grid whose step is smaller than the cell, one of the two neighbours of the number lies in the
cell. -/
theorem Cell.isSome_onGrid {cell : Cell} {tie : Tie} {k : Int}
    (hlow : cell.low < cell.value) (hhigh : cell.value < cell.high)
    (hstep : (10 ^ k : ℚ) < (cell.high - cell.low) * 2 ^ cell.exponent) :
    (cell.onGrid tie (Scale.of cell.exponent k)).isSome := by
  obtain ⟨unit, hunit, hup, hdown⟩ := Scale.exists_unit cell.exponent k
  have hdownPos : 0 < (Scale.of cell.exponent k).down := by
    rw [← Nat.cast_pos (α := ℚ), hdown]
    positivity
  have htwo : (0 : ℚ) < 2 ^ cell.exponent := by positivity
  have hlow : (cell.low * 2 ^ cell.exponent : ℚ) < cell.value * 2 ^ cell.exponent := by gcongr
  have hhigh : (cell.value * 2 ^ cell.exponent : ℚ) < cell.high * 2 ^ cell.exponent := by gcongr
  set below := cell.value * (Scale.of cell.exponent k).up / (Scale.of cell.exponent k).down with hbelow
  have hle : (below * 10 ^ k : ℚ) ≤ cell.value * 2 ^ cell.exponent := by
    rw [← Scale.ge_iff]
    exact Nat.div_mul_le_self _ _
  have hlt : (cell.value * 2 ^ cell.exponent : ℚ) < (below + 1 : Nat) * 10 ^ k := by
    rw [← not_le, ← Scale.ge_iff, not_le]
    exact Nat.lt_mul_of_div_lt (Nat.lt_succ_self _) hdownPos
  have heither : cell.Holds (below * 10 ^ k) ∨ cell.Holds ((below + 1 : Nat) * 10 ^ k) := by
    rcases lt_or_ge (((below + 1 : Nat) : ℚ) * 10 ^ k) (cell.high * 2 ^ cell.exponent) with h | h
    · exact .inr (holds_of_lt (hlow.trans hlt) h)
    · refine .inl (holds_of_lt ?_ (hle.trans_lt hhigh))
      push_cast at h
      linarith
  rw [← contains_iff, ← contains_iff] at heither
  unfold onGrid
  dsimp only
  rw [← hbelow]
  split
  · rename_i hb ha
    rw [hb, ha] at heither
    simp at heither
  · rfl
  · rfl
  · split
    · rfl
    · split
      · rfl
      · split
        · rfl
        · split <;> rfl

/-! ## The leading digit -/

theorem pow_length_le {n : Nat} (h : 0 < n) : 10 ^ ((Decimal.digits n).length - 1) ≤ n := by
  rcases Nat.eq_zero_or_pos ((Decimal.digits n).length - 1) with hone | hmore
  · rw [hone]
    exact h
  · apply Nat.le_of_not_lt
    intro hlt
    have := (Nat.length_toDigits_le_iff (b := 10) (by decide) hmore).2 hlt
    have hlen : (Decimal.digits n).length = (Nat.toDigits 10 n).length := rfl
    omega

theorem lt_pow_length (n : Nat) : n < 10 ^ (Decimal.digits n).length :=
  (Nat.length_toDigits_le_iff (by decide) (List.length_pos_of_ne_nil (Decimal.digits_ne_nil n))).1
    (Nat.le_refl _)

/-- The power of ten of the leading digit is not above the number. -/
theorem zpow_leadingPower_le {num den : Nat} (hnum : 0 < num) (hden : 0 < den) :
    (10 : ℚ) ^ leadingPower num den ≤ num / den := by
  have hden' : (0 : ℚ) < den := by exact_mod_cast hden
  rw [le_div_iff₀ hden']
  have hinv (n p : Nat) (h : den ≤ num * 10 ^ p) : (10 : ℚ) ^ (-(p : Int)) * den ≤ num := by
    rw [zpow_neg, zpow_natCast, inv_mul_le_iff₀ (by positivity), mul_comm]
    exact_mod_cast h
  unfold leadingPower
  split
  · rename_i hle
    have hquot : 0 < num / den := Nat.div_pos hle hden
    have hpos := List.length_pos_of_ne_nil (Decimal.digits_ne_nil (num / den))
    obtain ⟨p, hp⟩ : ∃ p, (Decimal.digits (num / den)).length = p + 1 := ⟨_, (Nat.succ_pred hpos.ne').symm⟩
    have hpow := pow_length_le hquot
    rw [hp, Nat.add_sub_cancel] at hpow
    rw [hp, Nat.cast_succ, add_sub_cancel_right, zpow_natCast]
    exact_mod_cast (Nat.mul_le_mul_right den hpow).trans (Nat.div_mul_le_self num den)
  · dsimp only
    split
    · rename_i hle
      have hpos := List.length_pos_of_ne_nil (Decimal.digits_ne_nil (den / num))
      have := hinv den _ hle
      rwa [Nat.cast_sub hpos, Nat.cast_one, neg_sub] at this
    · apply hinv den
      have := Nat.lt_mul_of_div_lt (lt_pow_length (den / num)) hnum
      rw [Nat.mul_comm]
      exact this.le

/-! ## The search -/

theorem holds_of_search {cell : Cell} {tie : Tie} {leading : Int} {fuel n : Nat} {d : Decimal}
    (h : search cell tie leading fuel n = some d) : cell.Holds d.value := by
  induction fuel generalizing n with
  | zero => cases h
  | succ fuel ih =>
    unfold search at h
    dsimp only at h
    split at h
    · rename_i c hc
      cases h
      exact Cell.holds_of_onGrid hc
    · exact ih h

/-- The search comes to a grid that it may try. -/
theorem isSome_search {cell : Cell} {tie : Tie} {leading : Int} {fuel n j : Nat} (hj : j < fuel)
    (h : (cell.onGrid tie (Scale.of cell.exponent (leading - (n + j : Nat)))).isSome) :
    (search cell tie leading fuel n).isSome := by
  induction fuel generalizing n j with
  | zero => cases hj
  | succ fuel ih =>
    unfold search
    dsimp only
    split
    · rfl
    · rename_i hnone
      cases j with
      | zero =>
        rw [Nat.add_zero, hnone] at h
        cases h
      | succ j => exact ih (Nat.lt_of_succ_lt_succ hj) (by rwa [Nat.add_right_comm, Nat.add_assoc])

theorem value_trim (fuel : Nat) (d : Decimal) : (trim fuel d).value = d.value := by
  induction fuel generalizing d with
  | zero => rfl
  | succ fuel ih =>
    unfold trim
    split
    · rename_i h
      rw [ih, Decimal.value, Decimal.value, zpow_add_one₀ (by norm_num)]
      have hten : (d.coefficient : ℚ) = (d.coefficient / 10 : Nat) * 10 := by
        exact_mod_cast (Nat.div_mul_cancel (Nat.dvd_of_mod_eq_zero h.2)).symm
      rw [hten]
      ring
    · rfl

/-- The cell of a number of at most 53 bits is wider than a step of the grid of 17 digits. -/
theorem step_lt_width {m : Nat} {q : Int} (hpos : 0 < m) (hm : m < 2 ^ 53) :
    (m * 2 ^ q / 10 ^ 16 : ℚ) < (((Cell.of m q).high : ℚ) - (Cell.of m q).low) * 2 ^ (q - 2) := by
  have htwo : (0 : ℚ) < 2 ^ (q - 2) := by positivity
  have hq : (2 : ℚ) ^ q = 4 * 2 ^ (q - 2) := by
    rw [zpow_sub₀ (by norm_num)]
    norm_num
    ring
  rw [hq, show (m * (4 * 2 ^ (q - 2)) / 10 ^ 16 : ℚ) = 4 * m / 10 ^ 16 * 2 ^ (q - 2) by ring,
    mul_lt_mul_iff_left₀ htwo]
  unfold Cell.of
  dsimp only
  split
  · rename_i hnarrow
    rw [hnarrow.1]
    norm_num
  · have hm : (m : ℚ) < 2 ^ 53 := by exact_mod_cast hm
    have hlow : ((4 * m - 2 : Nat) : ℚ) = 4 * m - 2 := by
      rw [Nat.cast_sub (by omega)]
      push_cast
      rfl
    rw [hlow]
    push_cast
    linarith

/-- The shortest decimal of a number lies in its cell. -/
theorem holds_decimal (tie : Tie) {m : Nat} {q : Int} (hpos : 0 < m) (hm : m < 2 ^ 53) :
    (Cell.of m q).Holds (decimal tie m q).value := by
  obtain ⟨unit, hunit, hup, hdown⟩ := Scale.exists_unit q 0
  have hupPos : 0 < (Scale.of q 0).up := by
    rw [← Nat.cast_pos (α := ℚ), hup]
    positivity
  have hdownPos : 0 < (Scale.of q 0).down := by
    rw [← Nat.cast_pos (α := ℚ), hdown]
    positivity
  set leading := leadingPower (m * (Scale.of q 0).up) (Scale.of q 0).down with hleading
  have hvalue : (10 : ℚ) ^ leading ≤ m * 2 ^ q := by
    refine (zpow_leadingPower_le (Nat.mul_pos hpos hupPos) hdownPos).trans_eq ?_
    rw [Nat.cast_mul, hup, hdown, zpow_zero, mul_one, mul_left_comm, mul_div_cancel_left₀ _ hunit.ne']
  have hstep : (10 : ℚ) ^ (leading - (0 + 16 : Nat)) <
      ((Cell.of m q).high - (Cell.of m q).low) * 2 ^ (Cell.of m q).exponent := by
    refine lt_of_le_of_lt ?_ (step_lt_width hpos hm)
    rw [zpow_sub₀ (by norm_num), Nat.zero_add]
    change (10 : ℚ) ^ leading / 10 ^ ((16 : Nat) : Int) ≤ _
    rw [zpow_natCast]
    gcongr
  have hlow : (Cell.of m q).low < (Cell.of m q).value := by
    change 4 * m - (if m = 0x10000000000000 ∧ -1074 < q then 1 else 2) < 4 * m
    split <;> omega
  have hsome : (search (Cell.of m q) tie leading 17 0).isSome := isSome_search (by decide)
    (Cell.isSome_onGrid hlow (Nat.lt_add_of_pos_right (by decide)) hstep)
  obtain ⟨d, hd⟩ := Option.isSome_iff_exists.1 hsome
  rw [decimal, if_neg hpos.ne']
  dsimp only
  rw [← hleading, hd, Option.getD_some, value_trim]
  exact holds_of_search hd

/-- Only zero has the decimal zero. -/
theorem decimal_value_pos (tie : Tie) {m : Nat} {q : Int} (hpos : 0 < m) (hm : m < 2 ^ 53) :
    0 < (decimal tie m q).value := by
  have hlow := (holds_decimal tie (q := q) hpos hm).le.1
  refine lt_of_lt_of_le (mul_pos (Nat.cast_pos.2 ?_) (by positivity)) hlow
  change 0 < 4 * m - (if m = 0x10000000000000 ∧ -1074 < q then 1 else 2)
  split <;> omega

/-! ## Different numbers -/

/-- The cell of a number ends where the cell of a larger one begins, or before. -/
theorem Cell.high_le_low {s s' : UnpackedFloat.Sign} {m m' : Nat} {q q' : Int} {h : 0 < m} {h' : 0 < m'}
    (hc : Canonical (.finite s m q h)) (hc' : Canonical (.finite s' m' q' h'))
    (hlt : (m * 2 ^ q : ℚ) < m' * 2 ^ q') :
    ((Cell.of m q).high * 2 ^ (q - 2) : ℚ) ≤ (Cell.of m' q').low * 2 ^ (q' - 2) ∧
      ((Cell.of m q).closed → (Cell.of m' q').closed →
        ((Cell.of m q).high * 2 ^ (q - 2) : ℚ) < (Cell.of m' q').low * 2 ^ (q' - 2)) := by
  obtain ⟨hm, hfull, hq, -⟩ := hc
  obtain ⟨hm', hfull', hq', -⟩ := hc'
  have hlow : (Cell.of m' q').low = 4 * m' - (if m' = 0x10000000000000 ∧ -1074 < q' then 1 else 2) := rfl
  have hhigh : (Cell.of m q).high = 4 * m + 2 := rfl
  have hclosed : (Cell.of m q).closed = decide (m % 2 = 0) := rfl
  have hclosed' : (Cell.of m' q').closed = decide (m' % 2 = 0) := rfl
  rw [hlow, hhigh, hclosed, hclosed', decide_eq_true_iff, decide_eq_true_iff]
  have htwo (e : Int) : (0 : ℚ) < 2 ^ e := by positivity
  rcases lt_trichotomy q q' with hqq | rfl | hqq
  · -- the larger number is normal, so its cell begins no lower than the power of two below it
    have hnormal : 2 ^ 52 ≤ m' := hfull'.resolve_right (by omega)
    have hbegin : ((2 ^ 54 - 1 : Nat) : ℚ) * 2 ^ (q' - 2) ≤
        (4 * m' - (if m' = 0x10000000000000 ∧ -1074 < q' then 1 else 2) : Nat) * 2 ^ (q' - 2) := by
      have hle : 2 ^ 54 - 1 ≤ 4 * m' - (if m' = 0x10000000000000 ∧ -1074 < q' then 1 else 2) := by
        split <;> omega
      gcongr
    have hpower : ((2 ^ 55 - 2 : Nat) : ℚ) * 2 ^ (q - 2) ≤ ((2 ^ 54 - 1 : Nat) : ℚ) * 2 ^ (q' - 2) := by
      have hmono : (2 : ℚ) ^ (q - 2 + 1) ≤ 2 ^ (q' - 2) := zpow_le_zpow_right₀ (by norm_num) (by omega)
      rw [zpow_add_one₀ (by norm_num)] at hmono
      norm_num
      linarith
    have hend : ((4 * m + 2 : Nat) : ℚ) * 2 ^ (q - 2) ≤ ((2 ^ 55 - 2 : Nat) : ℚ) * 2 ^ (q - 2) := by
      gcongr
      omega
    refine ⟨hend.trans (hpower.trans hbegin), ?_⟩
    intro heven _
    refine lt_of_lt_of_le ?_ (hpower.trans hbegin)
    have hless : 4 * m + 2 < 2 ^ 55 - 2 := by omega
    have := htwo (q - 2)
    gcongr
  · have hmm : m < m' := by
      have := htwo q
      rw [mul_lt_mul_iff_left₀ this] at hlt
      exact_mod_cast hlt
    have := htwo (q - 2)
    constructor
    · have hle : 4 * m + 2 ≤ 4 * m' - (if m' = 0x10000000000000 ∧ -1074 < q then 1 else 2) := by
        split <;> omega
      gcongr
    · intro heven heven'
      have hless : 4 * m + 2 < 4 * m' - (if m' = 0x10000000000000 ∧ -1074 < q then 1 else 2) := by
        split <;> omega
      gcongr
  · exact absurd hlt (scaled_lt_scaled hm' (hfull.resolve_right (by omega)) hqq).le.not_gt

/-- No number lies in the cells of two numbers. -/
theorem Cell.not_holds_of_lt {s s' : UnpackedFloat.Sign} {m m' : Nat} {q q' : Int} {h : 0 < m}
    {h' : 0 < m'} (hc : Canonical (.finite s m q h)) (hc' : Canonical (.finite s' m' q' h'))
    (hlt : (m * 2 ^ q : ℚ) < m' * 2 ^ q') {x : ℚ} (hx : (Cell.of m q).Holds x) :
    ¬ (Cell.of m' q').Holds x := by
  intro hx'
  obtain ⟨hle, hclosed⟩ := high_le_low hc hc' hlt
  have hhigh : x ≤ (Cell.of m q).high * 2 ^ (q - 2) := hx.le.2
  have hlow : (Cell.of m' q').low * 2 ^ (q' - 2) ≤ x := hx'.le.1
  by_cases hboth : (Cell.of m q).closed = true ∧ (Cell.of m' q').closed = true
  · exact absurd (hclosed hboth.1 hboth.2) (hlow.trans hhigh).not_gt
  · -- an open end is not reached
    rcases not_and_or.1 hboth with hopen | hopen
    · rw [Holds, if_neg hopen] at hx
      exact absurd (hx.2.trans_le hle) hlow.not_gt
    · rw [Holds, if_neg hopen] at hx'
      exact absurd (hx'.1.trans_le hhigh) hle.not_gt

/-- Different numbers have different shortest decimals. -/
theorem decimal_value_inj {tie : Tie} {s s' : UnpackedFloat.Sign} {m m' : Nat} {q q' : Int} {h : 0 < m}
    {h' : 0 < m'} (hc : Canonical (.finite s m q h)) (hc' : Canonical (.finite s' m' q' h'))
    (hsame : (decimal tie m q).value = (decimal tie m' q').value) : m = m' ∧ q = q' := by
  have hx := holds_decimal tie (q := q) h hc.1
  have hx' := holds_decimal tie (q := q') h' hc'.1
  rw [← hsame] at hx'
  have hvalue : (m * 2 ^ q : ℚ) = m' * 2 ^ q' := by
    rcases lt_trichotomy (m * 2 ^ q : ℚ) (m' * 2 ^ q') with hlt | heq | hgt
    · exact absurd hx' (Cell.not_holds_of_lt hc hc' hlt hx)
    · exact heq
    · exact absurd hx (Cell.not_holds_of_lt hc' hc hgt hx')
  obtain ⟨hm, hfull, hq, -⟩ := hc
  obtain ⟨hm', hfull', hq', -⟩ := hc'
  obtain rfl : q = q' := by
    rcases lt_trichotomy q q' with hlt | heq | hgt
    · exact absurd hvalue (scaled_lt_scaled hm (hfull'.resolve_right (by omega)) hlt).ne
    · exact heq
    · exact absurd hvalue (scaled_lt_scaled hm' (hfull.resolve_right (by omega)) hgt).ne'
  have htwo : (2 : ℚ) ^ q ≠ 0 := by positivity
  exact ⟨by exact_mod_cast mul_right_cancel₀ htwo hvalue, rfl⟩

end Interleave.Shortest
