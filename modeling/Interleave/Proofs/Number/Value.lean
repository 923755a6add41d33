import Mathlib

/-!
# The rational value of a float

Arithmetic on floats unpacks its operands into sign, mantissa and exponent, works there and packs
the result. `value` reads a float as a rational number, with 0 for NaN and the infinities, and
`Canonical` are the unpacked forms that a float can have.

Results:
* `finiteForm_unpack`: a finite float is a zero, or a mantissa with an exponent.
* `unpack_pack`: a canonical form survives packing.
* `value_neg`, `value_abs`: negation and absolute value are exact.
* `lt_iff_value_lt`, `le_iff_value_le`, `beq_iff_value_eq`: the order of finite floats is the order of
  their values.
-/
namespace Interleave.Number

open Float.Model Float.Model.UnpackedFloat

/-! ## Canonical forms -/

/-- The forms that unpacking produces: a finite one has at most 53 bits, and fewer only at the
smallest exponent. -/
def Canonical : UnpackedFloat → Prop
  | .finite _ m e _ => m < 2 ^ 53 ∧ (2 ^ 52 ≤ m ∨ e = -1074) ∧ -1074 ≤ e ∧ e ≤ 971
  | _ => True

theorem log2_eq_of_normal {m : Nat} (hlo : 2 ^ 52 ≤ m) (hhi : m < 2 ^ 53) : m.log2 = 52 :=
  (Nat.log2_eq_iff (by omega)).2 ⟨hlo, hhi⟩

theorem toNat_implicit (v : BitVec 52) : (1#1 ++ v).toNat = 2 ^ 52 + v.toNat := by
  rw [BitVec.toNat_append, ← Nat.shiftLeft_add_eq_or_of_lt v.isLt]
  rfl

theorem canonical_unpack (x : Float.Model) : Canonical x.unpack := by
  unfold Float.Model.unpack UnpackedFloat.unpack
  have hm : (@unpackMantissa .binary64 x.toBits.toBitVec).toNat < 2 ^ 52 :=
    (@unpackMantissa .binary64 x.toBits.toBitVec).isLt
  have he : (@unpackExponent .binary64 x.toBits.toBitVec).toNat < 2 ^ 11 :=
    (@unpackExponent .binary64 x.toBits.toBitVec).isLt
  have hbias : (Format.binary64.exponentBias : Int) = 1023 := rfl
  dsimp only
  split
  · split <;> trivial
  · rename_i hinf
    have hinf : (@unpackExponent .binary64 x.toBits.toBitVec).toNat ≠ 2047 :=
      fun h => hinf (BitVec.eq_of_toNat_eq h)
    split
    · rename_i hzero
      split
      · trivial
      · refine ⟨by omega, .inr ?_, ?_, ?_⟩ <;> simp [hzero, hbias]
    · rename_i hzero
      have hzero : (@unpackExponent .binary64 x.toBits.toBitVec).toNat ≠ 0 :=
        fun h => hzero (BitVec.eq_of_toNat_eq h)
      refine ⟨?_, .inl ?_, ?_, ?_⟩ <;> simp only [toNat_implicit, hbias] <;> omega

/-- The forms that a finite float can have: a zero, or a mantissa with an exponent. -/
inductive FiniteForm : UnpackedFloat → Prop where
  | zero (s : Sign) : FiniteForm (.zero s)
  | finite {s : Sign} {m : Nat} {e : Int} {h : 0 < m} :
    Canonical (.finite s m e h) → FiniteForm (.finite s m e h)

theorem finiteForm_unpack {x : Float} (hx : x.isFinite = true) : FiniteForm x.toModel.unpack := by
  have hcanonical := canonical_unpack x.toModel
  change x.toModel.unpack.isFinite = true at hx
  generalize x.toModel.unpack = u at *
  cases u with
  | notANumber => cases hx
  | infinity => cases hx
  | zero s => exact .zero s
  | finite s m e h => exact .finite hcanonical

theorem ofNat_ne_ofNat {w n m : Nat} (hn : n < 2 ^ w) (hm : m < 2 ^ w) (h : n ≠ m) :
    BitVec.ofNat w n ≠ BitVec.ofNat w m := by
  intro heq
  have hnat := congrArg BitVec.toNat heq
  rw [BitVec.toNat_ofNat, BitVec.toNat_ofNat, Nat.mod_eq_of_lt hn, Nat.mod_eq_of_lt hm] at hnat
  exact h hnat

section
variable {s : Sign} {m : Nat} {e : Int} {hpos : 0 < m}

/-- A full mantissa is packed without its leading bit, which the exponent field stands for. -/
theorem unpack_pack_normal (hm : m < 2 ^ 53) (hfull : 2 ^ 52 ≤ m) (hlo : -1074 ≤ e) (hhi : e ≤ 971) :
    (Float.Model.pack (.finite s m e hpos)).unpack = .finite s m e hpos := by
  have hbias : (e + Format.binary64.exponentBias + (52 : Nat)).toNat = (e + 1075).toNat := by
    change (e + 1023 + 52).toNat = _
    omega
  have hfit : ¬ 2 ^ 11 ≤ (e + 1075).toNat + 1 := by omega
  have hlog : m.log2 + 1 = Format.binary64.mantissaBits := by
    rw [log2_eq_of_normal hfull hm]; rfl
  have he : (BitVec.ofNat 11 (e + 1075).toNat).toNat = (e + 1075).toNat := by
    rw [BitVec.toNat_ofNat, Nat.mod_eq_of_lt (by omega)]
  have hmant : (1#1 ++ BitVec.ofNat 52 m).toNat = m := by
    rw [toNat_implicit, BitVec.toNat_ofNat]; omega
  have hinf : BitVec.ofNat 11 (e + 1075).toNat ≠ -1#11 :=
    ofNat_ne_ofNat (m := 2047) (by omega) (by decide) (by omega)
  have hzero : BitVec.ofNat 11 (e + 1075).toNat ≠ 0#11 :=
    ofNat_ne_ofNat (by omega) (by decide) (by omega)
  have hexp : ((e + 1075).toNat : Int) - (Format.binary64.exponentBias + (52 : Nat)) = e := by
    change _ - (1023 + 52 : Int) = e
    omega
  change UnpackedFloat.unpack .binary64 (UnpackedFloat.pack .binary64 (.finite s m e hpos)) = _
  simp only [UnpackedFloat.pack, hbias, if_neg hfit, if_pos hlog, UnpackedFloat.unpack,
    unpackMantissa_packComponents, unpackExponent_packComponents, if_neg hinf, if_neg hzero,
    unpackSign_packComponents, Sign.ofBitVec_toBitVec, he, hmant, hexp]

/-- A mantissa that is not full stands at the smallest exponent, with an exponent field of 0. -/
theorem unpack_pack_subnormal (hsub : m < 2 ^ 52) :
    (Float.Model.pack (.finite s m (-1074) hpos)).unpack = .finite s m (-1074) hpos := by
  have hlog : ¬ m.log2 + 1 = Format.binary64.mantissaBits := by
    have := (Nat.log2_lt (by omega : m ≠ 0)).2 hsub
    change ¬ m.log2 + 1 = 53
    omega
  have hmant : (BitVec.ofNat 52 m).toNat = m := by
    rw [BitVec.toNat_ofNat, Nat.mod_eq_of_lt hsub]
  have hne : BitVec.ofNat 52 m ≠ 0#52 := ofNat_ne_ofNat hsub (by decide) (by omega)
  have hfit : ¬ 2 ^ 11 ≤ ((-1074) + Format.binary64.exponentBias + (52 : Nat) : Int).toNat + 1 := by
    decide
  have hexp : ((0#11 : BitVec 11).toNat : Int) - (Format.binary64.exponentBias + (52 : Nat)) + 1 =
      -1074 := rfl
  change UnpackedFloat.unpack .binary64 (UnpackedFloat.pack .binary64 (.finite s m _ hpos)) = _
  simp only [UnpackedFloat.pack, if_neg hfit, if_neg hlog, UnpackedFloat.unpack,
    unpackMantissa_packComponents, unpackExponent_packComponents, unpackSign_packComponents,
    Sign.ofBitVec_toBitVec, hmant, hexp]
  rw [if_neg (by decide), if_pos trivial, dif_neg hne]

end

/-- Packing forgets nothing that a float can hold. -/
theorem unpack_pack {u : UnpackedFloat} (h : Canonical u) : (Float.Model.pack u).unpack = u := by
  cases u with
  | notANumber => rfl
  | infinity s => cases s <;> rfl
  | zero s => cases s <;> rfl
  | finite s m e hpos =>
    obtain ⟨hm, hn, hlo, hhi⟩ := h
    by_cases hfull : 2 ^ 52 ≤ m
    · exact unpack_pack_normal hm hfull hlo hhi
    · obtain rfl := hn.resolve_left hfull
      exact unpack_pack_subnormal (not_le.1 hfull)

theorem unpack_inj {x y : Float} (h : x.toModel.unpack = y.toModel.unpack) : x = y := by
  obtain ⟨⟨⟨a⟩, ha⟩⟩ := x
  obtain ⟨⟨⟨b⟩, hb⟩⟩ := y
  have hbits : a = b := (UnpackedFloat.unpack_inj_of_valid ha hb).1 h
  subst hbits
  rfl

/-- Unpacking forgets nothing either. -/
theorem ofModel_pack_unpack (x : Float) : Float.ofModel (.pack x.toModel.unpack) = x :=
  unpack_inj (unpack_pack (canonical_unpack x.toModel))

/-! ## Values -/

/-- The number that an unpacked float stands for. -/
def unpackedValue : UnpackedFloat → ℚ
  | .finite s m e _ => s.apply m * 2 ^ e
  | _ => 0

/-- The number that a float stands for. -/
def value (x : Float) : ℚ := unpackedValue x.toModel.unpack

theorem value_ofModel_pack {u : UnpackedFloat} (h : Canonical u) :
    value (.ofModel (.pack u)) = unpackedValue u := by
  rw [value, unpack_pack h]

theorem isFinite_ofModel_pack {u : UnpackedFloat} (h : Canonical u) :
    (Float.ofModel (.pack u)).isFinite = u.isFinite := by
  change (Float.Model.pack u).unpack.isFinite = u.isFinite
  rw [unpack_pack h]

theorem abs_apply (s : Sign) (m : Nat) : |((s.apply m : Int) : ℚ)| = m := by
  cases s <;> simp [Sign.apply]

theorem abs_unpackedValue_finite (s : Sign) (m : Nat) (e : Int) (h : 0 < m) :
    |unpackedValue (.finite s m e h)| = m * 2 ^ e := by
  rw [unpackedValue, abs_mul, abs_apply, abs_of_pos (by positivity : (0 : ℚ) < 2 ^ e)]

theorem canonical_neg {u : UnpackedFloat} (h : Canonical u) : Canonical u.neg := by
  cases u <;> exact h

theorem canonical_abs {u : UnpackedFloat} (h : Canonical u) : Canonical u.abs := by
  cases u <;> exact h

theorem neg_ofModel_pack {u : UnpackedFloat} (h : Canonical u) :
    -Float.ofModel (.pack u) = .ofModel (.pack u.neg) := by
  change Float.ofModel (.pack (Float.Model.pack u).unpack.neg) = _
  rw [unpack_pack h]

theorem isFinite_neg (x : Float) : (-x).isFinite = x.isFinite := by
  change (Float.Model.pack x.toModel.unpack.neg).unpack.isFinite = x.toModel.unpack.isFinite
  rw [unpack_pack (canonical_neg (canonical_unpack _))]
  cases x.toModel.unpack <;> rfl

theorem value_neg (x : Float) : value (-x) = -value x := by
  change unpackedValue (Float.Model.pack x.toModel.unpack.neg).unpack = -unpackedValue x.toModel.unpack
  rw [unpack_pack (canonical_neg (canonical_unpack _))]
  cases x.toModel.unpack with
  | finite s m e h =>
    cases s
    · change ((m : Int) : ℚ) * 2 ^ e = -((-(m : Int) : Int) * 2 ^ e)
      push_cast; ring
    · change ((-(m : Int) : Int) : ℚ) * 2 ^ e = -((m : Int) * 2 ^ e)
      push_cast; ring
  | _ => rfl

theorem isFinite_abs (x : Float) : x.abs.isFinite = x.isFinite := by
  change (Float.Model.pack x.toModel.unpack.abs).unpack.isFinite = x.toModel.unpack.isFinite
  rw [unpack_pack (canonical_abs (canonical_unpack _))]
  cases x.toModel.unpack <;> rfl

theorem value_abs (x : Float) : value x.abs = |value x| := by
  change unpackedValue (Float.Model.pack x.toModel.unpack.abs).unpack = |unpackedValue x.toModel.unpack|
  rw [unpack_pack (canonical_abs (canonical_unpack _))]
  cases x.toModel.unpack with
  | finite s m e h => rw [abs_unpackedValue_finite]; simp [UnpackedFloat.abs, unpackedValue, Sign.apply]
  | _ => simp [UnpackedFloat.abs, unpackedValue]

/-! ## Order -/

theorem lt_iff_compare (x y : Float) :
    x < y ↔ x.toModel.unpack.compare y.toModel.unpack = some .lt := by
  change decide ((x.toModel.unpack.compare y.toModel.unpack == some .lt) = true) = true ↔ _
  simp

/-- A number of a larger exponent, being normal, is larger. -/
theorem scaled_lt_scaled {m₁ m₂ : Nat} {e₁ e₂ : Int} (hm : m₁ < 2 ^ 53) (hn : 2 ^ 52 ≤ m₂)
    (he : e₁ < e₂) : (m₁ * 2 ^ e₁ : ℚ) < m₂ * 2 ^ e₂ := by
  have hm : (m₁ : ℚ) < 2 ^ 53 := by exact_mod_cast hm
  have hn : (2 ^ 52 : ℚ) ≤ m₂ := by exact_mod_cast hn
  calc (m₁ * 2 ^ e₁ : ℚ) < 2 ^ 53 * 2 ^ e₁ := by gcongr
    _ = 2 ^ 52 * 2 ^ (e₁ + 1) := by rw [zpow_add_one₀ (by norm_num)]; ring
    _ ≤ 2 ^ 52 * 2 ^ e₂ := by gcongr <;> [norm_num; omega]
    _ ≤ m₂ * 2 ^ e₂ := by gcongr

/-- Canonical forms are compared by exponent first. -/
theorem then_eq_lt_iff {s₁ s₂ : Sign} {m₁ m₂ : Nat} {e₁ e₂ : Int} {h₁ : 0 < m₁} {h₂ : 0 < m₂}
    (c₁ : Canonical (.finite s₁ m₁ e₁ h₁)) (c₂ : Canonical (.finite s₂ m₂ e₂ h₂)) :
    (compare e₁ e₂).then (compare m₁ m₂) = .lt ↔ (m₁ * 2 ^ e₁ : ℚ) < m₂ * 2 ^ e₂ := by
  obtain ⟨hm₁, hn₁, he₁, -⟩ := c₁
  obtain ⟨hm₂, hn₂, he₂, -⟩ := c₂
  rcases lt_trichotomy e₁ e₂ with h | rfl | h
  · have := scaled_lt_scaled hm₁ (hn₂.resolve_right (by omega)) h
    simp [Int.compare_eq_lt.2 h, this]
  · simp [Nat.compare_eq_lt, (by positivity : (0 : ℚ) < 2 ^ e₁)]
  · have := scaled_lt_scaled hm₂ (hn₁.resolve_right (by omega)) h
    simp [Int.compare_eq_gt.2 h, this.le]

/-- The order of finite floats is the order of the numbers they stand for. -/
theorem lt_iff_value_lt {x y : Float} (hx : x.isFinite = true) (hy : y.isFinite = true) :
    x < y ↔ value x < value y := by
  rw [lt_iff_compare, value, value]
  have fx := finiteForm_unpack hx
  have fy := finiteForm_unpack hy
  generalize x.toModel.unpack = u at *
  generalize y.toModel.unpack = v at *
  have hpos (m : Nat) (e : Int) (h : 0 < m) : (0 : ℚ) < m * 2 ^ e := by positivity
  cases fx with
  | zero s =>
    cases fy with
    | zero t => simp [UnpackedFloat.compare, unpackedValue]
    | @finite t n f k _ =>
      have := hpos n f k
      cases t <;> simp [UnpackedFloat.compare, unpackedValue, Sign.apply, this, this.le]
  | @finite s m e h cx =>
    have hm := hpos m e h
    cases fy with
    | zero t => cases s <;> simp [UnpackedFloat.compare, unpackedValue, Sign.apply, hm, hm.le]
    | @finite t n f k cy =>
      have hn := hpos n f k
      cases s <;> cases t
      · rw [show UnpackedFloat.compare (.finite .negative m e h) (.finite .negative n f k) =
            some ((compare e f).then (compare m n)).swap from rfl, Ordering.swap_then,
          Int.compare_swap, Nat.compare_swap, Option.some_inj, then_eq_lt_iff cy cx]
        simp [unpackedValue, Sign.apply]
      · simp [UnpackedFloat.compare, unpackedValue, Sign.apply]
        linarith
      · simp [UnpackedFloat.compare, unpackedValue, Sign.apply]
        linarith
      · rw [show UnpackedFloat.compare (.finite .positive m e h) (.finite .positive n f k) =
            some ((compare e f).then (compare m n)) from rfl, Option.some_inj, then_eq_lt_iff cx cy]
        simp [unpackedValue, Sign.apply]

/-- What lies below something in size is finite. -/
theorem isFinite_of_abs_lt {x y : Float} (h : x.abs < y) : x.isFinite = true := by
  rw [lt_iff_compare] at h
  change UnpackedFloat.compare (Float.Model.pack x.toModel.unpack.abs).unpack _ = _ at h
  rw [unpack_pack (canonical_abs (canonical_unpack _))] at h
  change x.toModel.unpack.isFinite = true
  cases hx : x.toModel.unpack with
  | notANumber => simp [hx, UnpackedFloat.abs, UnpackedFloat.compare] at h
  | infinity s =>
    simp only [hx, UnpackedFloat.abs] at h
    cases hy : y.toModel.unpack with
    | infinity t => cases t <;> simp [hy, UnpackedFloat.compare] at h
    | _ => simp [hy, UnpackedFloat.compare] at h
  | zero s => rfl
  | finite s m e h => rfl

/-! ### Equality and the order with it -/

theorem le_iff_compare (x y : Float) :
    x ≤ y ↔ (x.toModel.unpack.compare y.toModel.unpack).any Ordering.isLE = true := by
  change decide ((x.toModel.unpack.compare y.toModel.unpack).any Ordering.isLE = true) = true ↔ _
  simp

theorem beq_iff_compare (x y : Float) :
    (x == y) = true ↔ x.toModel.unpack.compare y.toModel.unpack = some .eq := by
  change (x.toModel.unpack.compare y.toModel.unpack == some .eq) = true ↔ _
  simp

/-- Finite forms have an order, and exchanged the opposite one. -/
theorem exists_compare {u v : UnpackedFloat} (hu : FiniteForm u) (hv : FiniteForm v) :
    ∃ o, u.compare v = some o ∧ v.compare u = some o.swap := by
  cases hu with
  | zero s =>
    cases hv with
    | zero t => exact ⟨_, rfl, rfl⟩
    | @finite t n f k _ => cases t <;> exact ⟨_, rfl, rfl⟩
  | @finite s m e h _ =>
    cases hv with
    | zero t => cases s <;> exact ⟨_, rfl, rfl⟩
    | @finite t n f k _ =>
      cases s <;> cases t <;> refine ⟨_, rfl, ?_⟩ <;>
        simp [UnpackedFloat.compare, Ordering.swap_then, Int.compare_swap, Nat.compare_swap]

section
variable {x y : Float} (hx : x.isFinite = true) (hy : y.isFinite = true)
include hx hy

theorem le_iff_not_lt : x ≤ y ↔ ¬y < x := by
  obtain ⟨o, ho, hswap⟩ := exists_compare (finiteForm_unpack hx) (finiteForm_unpack hy)
  rw [le_iff_compare, lt_iff_compare, ho, hswap]
  cases o <;> simp

theorem le_iff_value_le : x ≤ y ↔ value x ≤ value y := by
  rw [le_iff_not_lt hx hy, lt_iff_value_lt hy hx, not_lt]

theorem beq_iff_value_eq : (x == y) = true ↔ value x = value y := by
  have hvalue : value x = value y ↔ x ≤ y ∧ ¬x < y := by
    rw [le_iff_value_le hx hy, lt_iff_value_lt hx hy, eq_iff_le_not_lt]
  obtain ⟨o, ho, -⟩ := exists_compare (finiteForm_unpack hx) (finiteForm_unpack hy)
  rw [hvalue, le_iff_compare, lt_iff_compare, beq_iff_compare, ho]
  cases o <;> simp

end

/-- What lies between finite numbers is finite. -/
theorem isFinite_of_between {a x b : Float} (ha : a.isFinite = true) (hb : b.isFinite = true)
    (hax : a < x) (hxb : x ≤ b) : x.isFinite = true := by
  rw [lt_iff_compare] at hax
  rw [le_iff_compare] at hxb
  change a.toModel.unpack.isFinite = true at ha
  change b.toModel.unpack.isFinite = true at hb
  change x.toModel.unpack.isFinite = true
  cases hx : x.toModel.unpack with
  | notANumber => rw [hx] at hxb; cases hxb
  | infinity s =>
    rw [hx] at hax hxb
    cases s with
    | negative =>
      cases hu : a.toModel.unpack <;> simp_all [UnpackedFloat.compare, UnpackedFloat.isFinite]
    | positive =>
      cases hu : b.toModel.unpack <;> simp_all [UnpackedFloat.compare, UnpackedFloat.isFinite]
  | zero s => rfl
  | finite s m e h => rfl

end Interleave.Number
