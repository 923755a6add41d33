import Interleave.Proofs.Number.Rounds

/-!
# Bounds beyond the floats

A result too large for a float is an infinity. It has no value, but it still lies on one side of every
number, and `AtMost` is a bound that holds of it too. `largest` is the largest float.

Results:
* `Rounds.atMost`: what is rounded stays below a float.
* `AtMost.mul`: a bound survives a factor of at least 1.
* `abs_value_le_largest`: no finite float is larger in size.
-/
namespace Interleave.Number

open Float.Model Float.Model.UnpackedFloat

/-- The number is at most `q`, or it is `-∞`. -/
def AtMost (z : Float) (q : ℚ) : Prop :=
  z.isFinite = true ∧ value z ≤ q ∨ z.toModel.unpack = .infinity .negative

section
variable {w : Float} (hw : w.isFinite = true) (hneg : value w < 0)
include hw hneg

theorem Rounds.atMost {q : ℚ} {z : Float} (h : Rounds q z) (hq : q ≤ value w) :
    AtMost z (value w) := by
  have hq0 : q < 0 := hq.trans_lt hneg
  cases hz : z.isFinite with
  | false => exact .inr (by rw [h.infinite hz, if_pos hq0])
  | true =>
    have hsize := h.ge hz w hw (by rw [abs_of_neg hneg, abs_of_neg hq0]; linarith)
    rw [abs_of_neg hneg, abs_of_nonpos (h.nonpos hq0.le)] at hsize
    exact .inl ⟨hz, by linarith⟩

theorem AtMost.mul {x y : Float} (hx : x.isFinite = true) (hx1 : 1 ≤ value x)
    (h : AtMost y (value w)) : AtMost (x * y) (value w) := by
  rcases h with ⟨hy, hle⟩ | hinf
  · apply (rounds_mul hx hy).atMost hw hneg
    nlinarith
  · right
    change (Float.Model.pack (UnpackedFloat.mul .binary64 x.toModel.unpack y.toModel.unpack)).unpack = _
    rw [hinf]
    have hform := finiteForm_unpack hx
    rw [value] at hx1
    generalize x.toModel.unpack = u at *
    cases hform with
    | zero => norm_num [unpackedValue] at hx1
    | @finite s m e hm _ =>
      cases s with
      | positive => exact unpack_pack (u := .infinity .negative) trivial
      | negative =>
        have hpos : (0 : ℚ) < m * 2 ^ e := by positivity
        simp only [unpackedValue, Sign.apply] at hx1
        push_cast at hx1
        linarith

end

/-- The largest float. -/
def largest : Float := .ofBits 0x7FEFFFFFFFFFFFFF

theorem isFinite_largest : largest.isFinite = true := rfl

theorem value_largest : value largest = (2 ^ 53 - 1 : Nat) * 2 ^ (971 : Int) := by
  change unpackedValue (.finite .positive (2 ^ 53 - 1) 971 (by decide)) = _
  simp [unpackedValue, Sign.apply]

theorem abs_value_le_largest {x : Float} (hx : x.isFinite = true) : |value x| ≤ value largest := by
  obtain ⟨n, k, hnk, hn, -, hk⟩ := exists_scaled hx
  rw [hnk, value_largest]
  have hn : (n : ℚ) ≤ (2 ^ 53 - 1 : Nat) := by exact_mod_cast Nat.le_sub_one_of_lt hn
  gcongr
  norm_num

end Interleave.Number
