import Interleave.Number.Layout
import Interleave.Number.Literal
import Mathlib

/-!
# The parts of number text

A layout writes a decimal as digits with a point and a power of ten. `Spelling` are these parts, and
the number that they spell is the decimal, whichever way the point was moved.

Results:
* `Decimal.ofDigits_digits`: the digits of a natural number are read back.
* `Literal.natUpTo?_toString`, `Literal.intWithin?_toString`: whole numbers within bounds are read back.
* `Layout.unsigned_eq`: number text consists of its parts.
* `Layout.formed_spelling`: there are only digits in them, without a leading zero.
* `Layout.value_spelling`: they spell the decimal.
-/
namespace Interleave

namespace Decimal

/-- The number that a decimal stands for. -/
def value (d : Decimal) : ℚ := d.coefficient * 10 ^ d.exponent

theorem ofDigits_eq (cs : List Char) : ofDigits cs = Nat.ofDigitChars 10 cs 0 :=
  Nat.ofDigitChars_eq_foldl.symm

theorem ofDigits_digits (n : Nat) : ofDigits (digits n) = n := by
  rw [ofDigits_eq]
  exact Nat.ofDigitChars_ten_toDigits

theorem ofDigits_append (a b : List Char) :
    ofDigits (a ++ b) = 10 ^ b.length * ofDigits a + ofDigits b := by
  rw [ofDigits_eq, ofDigits_eq, ofDigits_eq, Nat.ofDigitChars_append, Nat.ofDigitChars_eq_ofDigitChars_zero]

theorem ofDigits_zeros (n : Nat) : ofDigits (List.replicate n '0') = 0 := by
  rw [ofDigits_eq, Nat.ofDigitChars_replicate_zero, Nat.mul_zero]

theorem digits_ne_nil (n : Nat) : digits n ≠ [] := Nat.toDigits_ne_nil

theorem isDigit_of_mem_digits {n : Nat} {c : Char} (h : c ∈ digits n) : c.isDigit :=
  Nat.isDigit_of_mem_toDigits (by decide) (by decide) h

theorem digitChar_ne_zero {n : Nat} (h : n ≠ 0) (hn : n < 10) : n.digitChar ≠ '0' := by
  interval_cases n <;> simp_all

/-- A positive number does not begin with a zero. -/
theorem head_digits {n : Nat} (h : n ≠ 0) : (digits n).head? ≠ some '0' := by
  induction n using Nat.strongRecOn with
  | ind n ih =>
    rw [digits, Nat.toDigits_eq_if (by decide)]
    split
    · rename_i hn
      simpa using digitChar_ne_zero h hn
    · have hrest := ih (n / 10) (by omega) (by omega)
      rw [List.head?_append_of_ne_nil _ Nat.toDigits_ne_nil]
      exact hrest

end Decimal

/-- The digits that a text begins with. -/
theorem takeWhile_digits {ds rest : List Char} (hds : ∀ c ∈ ds, c.isDigit)
    (hrest : ∀ c ∈ rest.head?, c.isDigit = false) :
    (ds ++ rest).takeWhile Char.isDigit = ds ∧ (ds ++ rest).dropWhile Char.isDigit = rest := by
  have hstop : rest.takeWhile Char.isDigit = [] ∧ rest.dropWhile Char.isDigit = rest := by
    cases rest with
    | nil => exact ⟨rfl, rfl⟩
    | cons c cs => simp [hrest c rfl]
  rw [List.takeWhile_append_of_pos hds, List.dropWhile_append_of_pos hds, hstop.1, hstop.2,
    List.append_nil]
  exact ⟨rfl, rfl⟩

/-! ## Whole numbers -/

theorem toList_toString_nat (n : Nat) : (toString n).toList = Decimal.digits n := String.toList_ofList

theorem toList_toString_negSucc (n : Nat) :
    (toString (Int.negSucc n)).toList = '-' :: Decimal.digits (n + 1) := by
  show ("-" ++ toString (n + 1)).toList = _
  rw [String.toList_append, toList_toString_nat]
  rfl

namespace Literal

theorem digits?_digits (n : Nat) : digits? (Decimal.digits n) = some n := by
  have hall : (Decimal.digits n).all Char.isDigit :=
    List.all_eq_true.2 fun c hc => Decimal.isDigit_of_mem_digits hc
  rw [digits?, if_pos ⟨Decimal.digits_ne_nil n, hall⟩, Decimal.ofDigits_digits]

/-- The digits of a number do not begin with a sign. -/
theorem digits_ne_cons {n : Nat} {c : Char} {cs : List Char} (hc : c.isDigit = false) :
    Decimal.digits n ≠ c :: cs := by
  intro hcs
  have hdigit := Decimal.isDigit_of_mem_digits (hcs ▸ List.mem_cons_self)
  rw [hc] at hdigit
  cases hdigit

theorem nat?_digits (n : Nat) : nat? (Decimal.digits n) = some n := by
  unfold nat?
  split
  · rename_i hcs
    exact absurd hcs (digits_ne_cons rfl)
  · exact digits?_digits n

theorem int?_digits (n : Nat) : int? (Decimal.digits n) = some (n : Int) := by
  unfold int?
  split
  · rename_i hcs
    exact absurd hcs (digits_ne_cons rfl)
  · rename_i hcs
    exact absurd hcs (digits_ne_cons rfl)
  · rw [digits?_digits]
    rfl

/-- A natural number within the bound is read back. -/
theorem natUpTo?_toString {max n : Nat} (h : n ≤ max) : natUpTo? max (toString n) = some n := by
  rw [natUpTo?, toList_toString_nat, nat?_digits]
  simp [h]

/-- An integer within the bounds is read back. -/
theorem intWithin?_toString {min max n : Int} (h : min ≤ n ∧ n ≤ max) :
    intWithin? min max (toString n) = some n := by
  have hint : int? (toString n).toList = some n := by
    cases n with
    | ofNat n => exact (congrArg int? (toList_toString_nat n)).trans (int?_digits n)
    | negSucc n =>
      rw [toList_toString_negSucc, int?, digits?_digits]
      rfl
  rw [intWithin?, hint]
  simp [h]

end Literal

/-! ## Parts -/

/-- The parts of a number as it is written, without its sign. -/
structure Spelling where
  /-- The digits before the point. -/
  whole : List Char
  /-- The digits behind the point. -/
  fraction : List Char
  power : Option Int
  deriving DecidableEq, Repr

namespace Spelling

/-- The point and the digits behind it. -/
def point (s : Spelling) : List Char := if s.fraction = [] then [] else '.' :: s.fraction

/-- The sign of a power of ten. -/
def powerSign (plusSign : Bool) (power : Int) : List Char :=
  if power < 0 then ['-'] else if plusSign then ['+'] else []

/-- The power of ten. -/
def scale (plusSign : Bool) (s : Spelling) : List Char :=
  match s.power with
  | none => []
  | some power => 'e' :: (powerSign plusSign power ++ Decimal.digits power.natAbs)

def chars (plusSign : Bool) (s : Spelling) : List Char := s.whole ++ (s.point ++ s.scale plusSign)

/-- The number that is spelled. -/
def decimal (s : Spelling) : Decimal := .ofParts s.whole s.fraction (s.power.getD 0)

/-- Only digits, with at least one before the point, and no zero before another digit. -/
structure Formed (s : Spelling) : Prop where
  whole_ne_nil : s.whole ≠ []
  isDigit_whole : ∀ c ∈ s.whole, c.isDigit
  isDigit_fraction : ∀ c ∈ s.fraction, c.isDigit
  leading : s.whole = ['0'] ∨ s.whole.head? ≠ some '0'

end Spelling

namespace Layout

/-- The parts of digits with the point inside, before or after them. -/
def placed (suffix : Bool) (digits : List Char) (exponent : Int) : Spelling :=
  if 0 ≤ exponent then
    ⟨digits ++ List.replicate exponent.toNat '0', if suffix then ['0'] else [], none⟩
  else
    let places := (-exponent).toNat
    if places < digits.length then
      ⟨digits.take (digits.length - places), digits.drop (digits.length - places), none⟩
    else ⟨['0'], List.replicate (places - digits.length) '0' ++ digits, none⟩

/-- The parts that a layout writes. -/
def spelling (layout : Layout) (d : Decimal) : Spelling :=
  let digits := Decimal.digits d.coefficient
  let power := d.exponent + digits.length - 1
  if layout.positional power then placed layout.wholeSuffix digits d.exponent
  else ⟨digits.take 1, digits.drop 1, some power⟩

theorem placePoint_eq {suffix : Bool} {digits : List Char} {exponent : Int} (plusSign : Bool)
    (hne : digits ≠ []) :
    placePoint suffix digits exponent = (placed suffix digits exponent).chars plusSign := by
  have hpos := List.length_pos_of_ne_nil hne
  unfold placePoint placed
  split
  · cases suffix <;> simp [Spelling.chars, Spelling.point, Spelling.scale]
  · dsimp only
    split
    · have hdrop : digits.drop (digits.length - (-exponent).toNat) ≠ [] := by
        rw [Ne, List.drop_eq_nil_iff]
        omega
      simp only [Spelling.chars, Spelling.point, Spelling.scale, if_neg hdrop, List.append_nil]
    · simp [Spelling.chars, Spelling.point, Spelling.scale, hne]

theorem scientific_eq {plusSign : Bool} {digits : List Char} {power : Int} (hne : digits ≠ []) :
    scientific plusSign digits power =
      (⟨digits.take 1, digits.drop 1, some power⟩ : Spelling).chars plusSign := by
  match digits, hne with
  | [d], _ => simp [scientific, Spelling.chars, Spelling.point, Spelling.scale, Spelling.powerSign]
  | d :: e :: es, _ =>
    simp [scientific, Spelling.chars, Spelling.point, Spelling.scale, Spelling.powerSign]

theorem unsigned_eq (layout : Layout) (d : Decimal) :
    layout.unsigned d = (layout.spelling d).chars layout.plusSign := by
  unfold unsigned spelling
  dsimp only
  split
  · exact placePoint_eq _ (Decimal.digits_ne_nil _)
  · exact scientific_eq (Decimal.digits_ne_nil _)

/-- Digits of a positive number stay without a leading zero, and those of zero are alone. -/
theorem formed_placed {suffix : Bool} {digits : List Char} {exponent : Int} (hne : digits ≠ [])
    (hdigit : ∀ c ∈ digits, c.isDigit)
    (hleading : digits = ['0'] ∧ exponent ≤ 0 ∨ digits.head? ≠ some '0') :
    (placed suffix digits exponent).Formed := by
  have hpos := List.length_pos_of_ne_nil hne
  have hzeros (n : Nat) : ∀ c ∈ List.replicate n '0', c.isDigit := by
    intro c hc
    rw [List.eq_of_mem_replicate hc]
    rfl
  unfold placed
  split
  · refine ⟨by simp [hne], ?_, ?_, ?_⟩
    · intro c hc
      exact (List.mem_append.1 hc).elim (hdigit c) (hzeros _ c)
    · cases suffix <;> simp
    · rcases hleading with ⟨rfl, hexp⟩ | hhead
      · obtain rfl : exponent = 0 := by omega
        exact .inl rfl
      · exact .inr (by rwa [List.head?_append_of_ne_nil _ hne])
  · dsimp only
    split
    · rename_i hlt
      refine ⟨?_, fun c hc => hdigit c (List.mem_of_mem_take hc),
        fun c hc => hdigit c (List.mem_of_mem_drop hc), ?_⟩
      · simp only [ne_eq, List.take_eq_nil_iff, hne, or_false]
        omega
      · rcases hleading with ⟨rfl, -⟩ | hhead
        · simp at hlt
          omega
        · exact .inr (by rwa [List.head?_take, if_neg (by omega)])
    · refine ⟨by simp, by simp, ?_, .inl rfl⟩
      intro c hc
      exact (List.mem_append.1 hc).elim (hzeros _ c) (hdigit c)

/-- The parts of a decimal are well formed, unless it is a zero with a power of ten. -/
theorem formed_spelling (layout : Layout) {d : Decimal} (h : d.coefficient = 0 → d.exponent ≤ 0) :
    (layout.spelling d).Formed := by
  have hne := Decimal.digits_ne_nil d.coefficient
  have hdigit : ∀ c ∈ Decimal.digits d.coefficient, c.isDigit :=
    fun c => Decimal.isDigit_of_mem_digits
  have hleading : Decimal.digits d.coefficient = ['0'] ∧ d.exponent ≤ 0 ∨
      (Decimal.digits d.coefficient).head? ≠ some '0' := by
    by_cases hzero : d.coefficient = 0
    · exact .inl ⟨by rw [hzero]; rfl, h hzero⟩
    · exact .inr (Decimal.head_digits hzero)
  unfold spelling
  dsimp only
  split
  · exact formed_placed hne hdigit hleading
  · refine ⟨by simp [hne], fun c hc => hdigit c (List.mem_of_mem_take hc),
      fun c hc => hdigit c (List.mem_of_mem_drop hc), ?_⟩
    rcases hleading with ⟨hzero, -⟩ | hhead
    · exact .inl (by rw [hzero]; rfl)
    · exact .inr (by rwa [List.head?_take, if_neg (by decide)])

/-- A layout that marks whole numbers never writes digits alone. -/
theorem fraction_or_power {layout : Layout} (h : layout.wholeSuffix = true) (d : Decimal) :
    (layout.spelling d).fraction ≠ [] ∨ (layout.spelling d).power.isSome := by
  have hne := Decimal.digits_ne_nil d.coefficient
  unfold spelling placed
  dsimp only
  split
  · left
    split
    · exact List.cons_ne_nil _ _
    · split
      · rename_i hlt
        rw [Ne, List.drop_eq_nil_iff]
        omega
      · simp [hne]
  · exact .inr rfl

/-! ## Values -/

theorem value_ofParts (whole fraction : List Char) (power : Int) :
    (Decimal.ofParts whole fraction power).value =
      Decimal.ofDigits (whole ++ fraction) * 10 ^ (power - fraction.length) := rfl

theorem value_placed (suffix : Bool) (digits : List Char) (exponent : Int) :
    (placed suffix digits exponent).decimal.value = Decimal.ofDigits digits * 10 ^ exponent := by
  have hten : (10 : ℚ) ≠ 0 := by norm_num
  unfold placed
  split
  · rename_i hexp
    obtain ⟨n, rfl⟩ := Int.eq_ofNat_of_zero_le hexp
    cases suffix
    · simp only [Spelling.decimal, value_ofParts, Option.getD_none, Int.toNat_natCast,
        Bool.false_eq_true, if_false, List.append_nil, List.length_nil, Nat.cast_zero, sub_zero,
        zpow_zero, mul_one, Decimal.ofDigits_append, Decimal.ofDigits_zeros, List.length_replicate,
        Nat.add_zero, zpow_natCast]
      push_cast
      ring
    · simp only [Spelling.decimal, value_ofParts, Option.getD_none, Int.toNat_natCast, if_true,
        List.length_singleton, Decimal.ofDigits_append, Decimal.ofDigits_zeros,
        List.length_replicate, Nat.add_zero, zpow_natCast]
      have hzero : Decimal.ofDigits ['0'] = 0 := rfl
      rw [hzero]
      push_cast
      norm_num
      ring
  · rename_i hexp
    dsimp only
    split
    · rename_i hlt
      simp only [Spelling.decimal, value_ofParts, Option.getD_none, List.take_append_drop,
        List.length_drop]
      congr 2
      omega
    · simp only [Spelling.decimal, value_ofParts, Option.getD_none, List.length_append,
        List.length_replicate, List.singleton_append]
      have hzeros : Decimal.ofDigits ('0' :: (List.replicate ((-exponent).toNat - digits.length) '0' ++
          digits)) = Decimal.ofDigits digits := by
        rw [← List.cons_append, ← List.replicate_succ, Decimal.ofDigits_append, Decimal.ofDigits_zeros,
          Nat.mul_zero, Nat.zero_add]
      rw [hzeros]
      congr 2
      omega

/-- The parts that a layout writes spell the decimal. -/
theorem value_spelling (layout : Layout) (d : Decimal) :
    (layout.spelling d).decimal.value = d.value := by
  unfold spelling
  dsimp only
  split
  · rw [value_placed, Decimal.ofDigits_digits]
    rfl
  · have hpos := List.length_pos_of_ne_nil (Decimal.digits_ne_nil d.coefficient)
    rw [Spelling.decimal, value_ofParts, List.take_append_drop, Decimal.ofDigits_digits,
      Option.getD_some, List.length_drop, Decimal.value]
    congr 2
    omega

end Layout

end Interleave
