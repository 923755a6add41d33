import Interleave.Json.Value
import Interleave.Number.Scaling
/-!
# JSON numerals

A numeral is a number as it is spelled. Its digits are taken up one by one for as long as the number fits
64 bits. A digit before the point that finds no room moves the point instead; behind the point the first
digit that finds no room ends the number. What was taken up is then scaled by a power of ten.

Results:
* `gather_lt`: what is taken up fits 64 bits.
* `gather_of_lt`: digits that fit are all taken up.
-/
namespace Interleave.Json

/-- A number as it is spelled. -/
structure Numeral where
  negative : Bool
  /-- The digits before the point. -/
  whole : List Char
  /-- The digits behind the point, if there is one. -/
  fraction : Option (List Char)
  /-- The power of ten, if there is one. -/
  power : Option Int
  deriving DecidableEq, Repr

/-- The first number that does not fit 64 bits. -/
def wordBound : Nat := 0x10000000000000000

/-- Takes up digits behind `number` while the result is less than `wordBound`; also counts the digits left
over. -/
def gather (number : Nat) : List Char → Nat × Nat
  | [] => (number, 0)
  | c :: cs =>
    let next := 10 * number + (c.toNat - '0'.toNat)
    if next < wordBound then gather next cs else (number, cs.length + 1)

theorem gather_lt {number : Nat} (h : number < wordBound) (cs : List Char) :
    (gather number cs).1 < wordBound := by
  induction cs generalizing number with
  | nil => exact h
  | cons c cs ih =>
    simp only [gather]
    split
    · exact ih ‹_›
    · exact h

theorem le_foldl_digits (number : Nat) (cs : List Char) :
    number ≤ cs.foldl (fun n c => 10 * n + (c.toNat - '0'.toNat)) number := by
  induction cs generalizing number with
  | nil => exact Nat.le_refl _
  | cons c cs ih =>
    have hc : number ≤ 10 * number + (c.toNat - '0'.toNat) := by omega
    exact Nat.le_trans hc (ih _)

theorem gather_foldl {number : Nat} {cs : List Char}
    (h : cs.foldl (fun n c => 10 * n + (c.toNat - '0'.toNat)) number < wordBound) :
    gather number cs = (cs.foldl (fun n c => 10 * n + (c.toNat - '0'.toNat)) number, 0) := by
  induction cs generalizing number with
  | nil => rfl
  | cons c cs ih =>
    have hc := Nat.lt_of_le_of_lt (le_foldl_digits _ cs) h
    rw [gather, if_pos hc]
    exact ih h

theorem gather_of_lt {cs : List Char} (h : Decimal.ofDigits cs < wordBound) :
    gather 0 cs = (Decimal.ofDigits cs, 0) := gather_foldl h

namespace Numeral

/-- There is neither a fraction nor a power of ten. -/
def isWhole (n : Numeral) : Bool := n.fraction.isNone && n.power.isNone

/-- The digits before the point that were taken up, and the count of the others. -/
def gathered (n : Numeral) : Nat × Nat := gather 0 n.whole

/-- The digits that were taken up, without the sign, with the place of the point. -/
def magnitude (n : Numeral) : Decimal :=
  let fraction := n.fraction.getD []
  let taken := gather n.gathered.1 fraction
  ⟨taken.1, n.power.getD 0 + n.gathered.2 - (fraction.length - taken.2 : Nat)⟩

/-- The number that a numeral spells: an integer if it is whole, not a negative zero and within 64
bits, and a finite binary64 number otherwise. -/
def value? (n : Numeral) : Option Number :=
  let signed : Int := if n.negative then -(n.gathered.1 : Int) else n.gathered.1
  if n.isWhole && n.gathered.2 = 0 && (signed != 0 || !n.negative) && -0x8000000000000000 ≤ signed then
    some (.integer signed)
  else n.magnitude.scaled?.map fun x => .real (if n.negative then -x else x)

end Numeral

end Interleave.Json
