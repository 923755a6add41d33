import Interleave.Proofs.Json.Spaced
import Interleave.Proofs.Number.PlainText

/-!
# What printed numbers stand for

A reader of JSON may scale the digits of a number step by step, and miss the number that they stand for by
a little. What they stand for is the float nearest to their decimal, and for a printed number this is the
number, whatever a reader makes of it.

Results:
* `Numeral.nearest_realNumeral`: a printed number stands for itself.
-/
namespace Interleave.Json

open Float.Model.UnpackedFloat (Sign)
open Interleave.Number (Canonical finiteForm_unpack neg_ofModel_pack ofModel_pack_unpack)

/-- The float nearest to the decimal of a numeral. -/
def Numeral.nearest (n : Numeral) : Float :=
  let x := (Decimal.ofParts n.whole (n.fraction.getD []) (n.power.getD 0)).toFloat
  if n.negative then -x else x

/-- The number that a part of a text stands for. -/
def Syntax.nearest? : Syntax → Option Float
  | number n => some n.nearest
  | _ => none

theorem Numeral.nearest_ofSpelling (negative : Bool) (s : Spelling) :
    (Numeral.ofSpelling negative s).nearest =
      if negative then -s.decimal.toFloat else s.decimal.toFloat := by
  have hfraction : (Numeral.ofSpelling negative s).fraction.getD [] = s.fraction := by
    rw [ofSpelling]
    split <;> simp_all
  rw [nearest, hfraction]
  rfl

/-- A printed number stands for itself. -/
theorem Numeral.nearest_realNumeral {x : Float} (hx : x.isFinite = true) : (realNumeral x).nearest = x := by
  have hform := finiteForm_unpack hx
  have hpack := ofModel_pack_unpack x
  unfold realNumeral
  generalize x.toModel.unpack = u at *
  cases hform with
  | zero s =>
    rw [← hpack]
    cases s <;> decide +kernel
  | @finite s m e h hcanonical =>
    have hholds := Shortest.holds_decimal .even (q := e) h hcanonical.1
    rw [← Layout.value_spelling numberLayout] at hholds
    have hpositive : Canonical (.finite .positive m e h) := hcanonical
    have hread := Decimal.toFloat_of_holds hpositive hholds
    change (ofSpelling (isNegative s) (finiteSpelling m e)).nearest = x
    rw [nearest_ofSpelling, finiteSpelling, hread]
    cases s with
    | positive => exact hpack
    | negative =>
      have hneg := neg_ofModel_pack (u := .finite .positive m e h) hcanonical
      exact hneg.trans hpack

end Interleave.Json
