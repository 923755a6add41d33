import Interleave.Number.Literal
import Interleave.Proofs.Number.Nearest

/-!
# Numbers in messages and tables are read back

Messages and tables write the shortest decimal that lies in the cell of a number, digit by digit and without
an exponent. A reader of literals finds the same decimal in it, and rounds it to the number. What is no
finite number is written as a word that stands for it, and a sign is a sign, also of a zero.

Results:
* `Literal.decimal?_chars`: the digits are read as the decimal that they spell.
* `Literal.float?_plainText`: every number is read back.
-/
namespace Interleave

open Float.Model Float.Model.UnpackedFloat Number

/-! ## Signs -/

theorem ofBitVec_xor_one (b : BitVec 1) : Sign.ofBitVec (b ^^^ 1#1) = -Sign.ofBitVec b := by
  rcases BitVec.eq_zero_or_eq_one b with rfl | rfl <;> rfl

/-- The sign of a stored number is its highest bit. -/
theorem unpack_xor_sign (b : BitVec 64) :
    UnpackedFloat.unpack .binary64 (b ^^^ 0x8000000000000000#64) =
      (UnpackedFloat.unpack .binary64 b).neg := by
  have hmantissa : @unpackMantissa .binary64 (b ^^^ 0x8000000000000000#64) =
      @unpackMantissa .binary64 b := by
    unfold unpackMantissa
    rw [BitVec.extractLsb_xor]
    exact congrArg _ BitVec.xor_zero
  have hexponent : @unpackExponent .binary64 (b ^^^ 0x8000000000000000#64) =
      @unpackExponent .binary64 b := by
    unfold unpackExponent
    rw [BitVec.extractLsb_xor]
    exact congrArg _ BitVec.xor_zero
  have hsign : Sign.ofBitVec (@unpackSign .binary64 (b ^^^ 0x8000000000000000#64)) =
      -Sign.ofBitVec (@unpackSign .binary64 b) := by
    rw [← ofBitVec_xor_one]
    unfold unpackSign
    rw [BitVec.extractLsb_xor]
    rfl
  unfold UnpackedFloat.unpack
  dsimp only
  rw [hsign]
  simp only [hmantissa, hexponent]
  split
  · split <;> rfl
  · split
    · split <;> rfl
    · rfl

namespace Binary64

theorem toFloat_ofFloat (x : Float) : (ofFloat x).toFloat = x := Float.ofBits_toBits x

theorem toFloat_neg_ofFloat (x : Float) : (ofFloat x).neg.toFloat = -x := by
  have hbits : UnpackedFloat.unpack .binary64 (x.toBits ^^^ 0x8000000000000000).toBitVec =
      x.toModel.unpack.neg := by
    rw [UInt64.toBitVec_xor]
    exact unpack_xor_sign x.toBits.toBitVec
  exact congrArg (fun u => Float.ofModel (.pack u)) hbits

end Binary64

/-! ## Digits -/

namespace Literal

/-- The digits are read as the decimal that they spell. -/
theorem decimal?_chars {s : Spelling} (h : s.Formed) (hpower : s.power = none) (plusSign : Bool) :
    decimal? (s.chars plusSign) = some s.decimal := by
  obtain ⟨whole, fraction, power⟩ := s
  obtain ⟨hne, hwhole, hfraction, -⟩ := h
  change power = none at hpower
  subst hpower
  have hscale : (⟨whole, fraction, none⟩ : Spelling).chars plusSign =
      whole ++ (if fraction = [] then [] else '.' :: fraction) := by
    simp [Spelling.chars, Spelling.point, Spelling.scale]
  have hdigits (after : List Char) (hafter : ∀ c ∈ after.head?, c.isDigit = false) :=
    takeWhile_digits hwhole hafter
  rw [hscale, decimal?]
  by_cases hnone : fraction = []
  · subst hnone
    obtain ⟨htake, hdrop⟩ := hdigits [] (by simp)
    rw [if_pos rfl, htake, hdrop]
    simp only [if_neg hne, power?]
    rfl
  · obtain ⟨htake, hdrop⟩ := hdigits ('.' :: fraction) (by simp)
    have htakeAll : fraction.takeWhile Char.isDigit = fraction := List.takeWhile_eq_self_iff.2 hfraction
    have hdropAll : fraction.dropWhile Char.isDigit = [] := List.dropWhile_eq_nil_iff.2 hfraction
    rw [if_neg hnone, htake, hdrop]
    simp only [htakeAll, hdropAll, hne, false_and, if_false, power?]
    rfl

/-- What begins with a digit is no word. -/
theorem unsigned?_of_digit {c : Char} {cs : List Char} (hc : c.isDigit = true) :
    unsigned? (c :: cs) = (decimal? (c :: cs)).map fun d => .ofFloat d.toFloat := by
  have hlower : c.toLower = c := by
    have hupper : ¬(c.val ≥ 'A'.val ∧ c.val ≤ 'Z'.val) := by
      simp only [Char.isDigit, Bool.and_eq_true, decide_eq_true_eq] at hc
      intro hletter
      have hnine : c.toNat ≤ '9'.toNat := hc.2
      have ha : 'A'.toNat ≤ c.toNat := hletter.1
      exact absurd (ha.trans hnine) (by decide)
    rw [Char.toLower, dif_neg hupper]
  have hword (word : String) (hhead : ∀ d ∈ word.toList.head?, d.isDigit = false) :
      String.ofList ((c :: cs).map Char.toLower) ≠ word := by
    rintro rfl
    rw [String.toList_ofList, List.map_cons, hlower] at hhead
    rw [hhead c rfl] at hc
    cases hc
  rw [unsigned?, if_neg (not_or.2 ⟨hword "inf" (by simp), hword "infinity" (by simp)⟩),
    if_neg (hword "nan" (by simp))]

theorem binary64?_of_digit {cs : List Char} (h : ∀ c ∈ cs.head?, c.isDigit = true) :
    binary64? (String.ofList cs) = unsigned? cs := by
  rw [binary64?, String.toList_ofList]
  split
  · exact absurd (h '+' rfl) (by decide)
  · exact absurd (h '-' rfl) (by decide)
  · rfl

theorem binary64?_minus (cs : List Char) :
    binary64? (String.ofList ('-' :: cs)) = (unsigned? cs).map .neg := by
  rw [binary64?, String.toList_ofList]
  rfl

/-- Without a sign, the digits of a number are read as the number. -/
theorem unsigned?_plain {m : Nat} {e : Int} {h : 0 < m} (hc : Canonical (.finite .positive m e h)) :
    (∀ c ∈ (Layout.plain.unsigned (Shortest.decimal .up m e)).head?, c.isDigit = true) ∧
      unsigned? (Layout.plain.unsigned (Shortest.decimal .up m e)) =
        some (.ofFloat (.ofModel (.pack (.finite .positive m e h)))) := by
  have hpos := Shortest.decimal_value_pos .up (q := e) h hc.1
  have hformed : (Layout.plain.spelling (Shortest.decimal .up m e)).Formed := by
    apply Layout.formed_spelling
    intro hzero
    rw [Decimal.value, hzero, Nat.cast_zero, zero_mul] at hpos
    exact absurd hpos (lt_irrefl 0)
  have hpower : (Layout.plain.spelling (Shortest.decimal .up m e)).power = none := by
    show (Layout.placed _ _ _).power = none
    unfold Layout.placed
    split
    · rfl
    · dsimp only
      split <;> rfl
  have hvalue := Layout.value_spelling Layout.plain (Shortest.decimal .up m e)
  have hdecimal := decimal?_chars hformed hpower false
  rw [Layout.unsigned_eq]
  generalize Layout.plain.spelling (Shortest.decimal .up m e) = spelling at *
  have hholds := Shortest.holds_decimal .up (q := e) h hc.1
  rw [← hvalue] at hholds
  have hread := Decimal.toFloat_of_holds hc hholds
  obtain ⟨c, cs, hchars, hdigit⟩ : ∃ c cs, spelling.chars false = c :: cs ∧ c.isDigit = true := by
    obtain ⟨c, cs, hwhole⟩ := List.exists_cons_of_ne_nil hformed.whole_ne_nil
    refine ⟨c, cs ++ (spelling.point ++ spelling.scale false), by rw [Spelling.chars, hwhole]; rfl, ?_⟩
    exact hformed.isDigit_whole c (by rw [hwhole]; exact List.mem_cons_self)
  change (∀ c ∈ (spelling.chars false).head?, _) ∧ unsigned? (spelling.chars false) = _
  rw [hchars] at hdecimal ⊢
  refine ⟨by simpa using hdigit, ?_⟩
  rw [unsigned?_of_digit hdigit, hdecimal, Option.map_some, hread]

/-- Every number is read back. -/
theorem float?_plainText (x : Float) : float? (plainText x) = some x := by
  have hcanonical := canonical_unpack x.toModel
  have hx := ofModel_pack_unpack x
  unfold plainText Layout.format
  cases hu : x.toModel.unpack with
  | notANumber =>
    rw [← hx, hu]
    decide +kernel
  | infinity s =>
    rw [← hx, hu]
    cases s <;> decide +kernel
  | zero s =>
    rw [← hx, hu]
    cases s <;> decide +kernel
  | finite s m e h =>
    rw [hu] at hcanonical hx
    obtain ⟨hhead, hunsigned⟩ := unsigned?_plain (h := h) hcanonical
    cases s with
    | positive =>
      change float? (String.ofList (Layout.plain.unsigned (Shortest.decimal .up m e))) = _
      rw [float?, binary64?_of_digit hhead, hunsigned, Option.map_some, Binary64.toFloat_ofFloat, hx]
    | negative =>
      change float? (String.ofList ('-' :: Layout.plain.unsigned (Shortest.decimal .up m e))) = _
      have hneg := neg_ofModel_pack (u := .finite .positive m e h) hcanonical
      rw [float?, binary64?_minus, hunsigned, Option.map_some, Option.map_some,
        Binary64.toFloat_neg_ofFloat, hneg]
      exact congrArg some hx

end Literal

end Interleave
