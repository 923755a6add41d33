import Interleave.Json.Printer
import Interleave.Json.Reader
import Interleave.Proofs.Number.Shortest

/-!
# Strings and numbers in JSON text

What the printer writes for a string or a number, the reader takes up again in front of any text that
cannot continue it. `pieces` and `numeral` are the spellings that the reader then has.

Results:
* `readPieces_escaped`, `text?_pieces`: every string is read back, whatever characters it has.
* `readNumeral_numberChars`: every number is read up to its last character.
* `realNumeral_inj`: the spelling of a number tells which number it is.
-/
namespace Interleave.Json

open Interleave.Number (Canonical finiteForm_unpack unpack_inj)
open Float.Model.UnpackedFloat (Sign)

/-! ## Strings -/

/-- How the reader takes up an escaped character. -/
def piece (c : Char) : Piece :=
  if c ∈ ['"', '\\', '\x08', '\x0c', '\n', '\r', '\t'] then .char c
  else if c.toNat < 0x20 then .unit c.toNat
  else .char c

def pieces (s : String) : List Piece := s.toList.map piece

theorem hexValue?_hexDigit : ∀ n < 16, hexValue? (hexDigit n) = some n := by decide

/-- A control character without a letter of its own is written as a code unit. -/
theorem hexUnit?_control {n : Nat} (h : n < 0x20) :
    hexUnit? '0' '0' (hexDigit (n / 16)) (hexDigit (n % 16)) = some n := by
  have hzero : hexValue? '0' = some 0 := by decide
  rw [hexUnit?, hzero, hexValue?_hexDigit _ (by omega), hexValue?_hexDigit _ (by omega)]
  change some _ = some n
  congr 1
  omega

/-- An escape of one letter. -/
theorem readPieces_letter {e c : Char} (he : escaped? e = some c) (hu : e ≠ 'u') (cs : List Char) :
    readPieces ('\\' :: e :: cs) = (readPieces cs).map fun p => (.char c :: p.1, p.2) := by
  rw [readPieces]
  · rw [he]
    cases readPieces cs <;> rfl
  · intro a b c d cs' h
    exact absurd h hu

theorem readPieces_escapeChar (c : Char) (cs : List Char) :
    readPieces (escapeChar c ++ cs) = (readPieces cs).map fun p => (piece c :: p.1, p.2) := by
  unfold escapeChar
  split
  case h_8 hquote hslash hback hfeed hline hreturn htab =>
    have hnamed : c ∉ ['"', '\\', '\x08', '\x0c', '\n', '\r', '\t'] := by
      simp only [List.mem_cons, List.not_mem_nil, or_false]
      rintro (h | h | h | h | h | h | h)
      · exact hquote h
      · exact hslash h
      · exact hback h
      · exact hfeed h
      · exact hline h
      · exact hreturn h
      · exact htab h
    rw [piece, if_neg hnamed]
    split
    · rename_i hcontrol
      simp only [List.cons_append, List.nil_append, readPieces, hexUnit?_control hcontrol]
      cases readPieces cs <;> rfl
    · rename_i hplain
      simp only [List.cons_append, List.nil_append]
      rw [readPieces]
      · rw [if_neg (not_or.2 ⟨hslash, hplain⟩)]
        cases readPieces cs <;> rfl
      all_goals grind
  all_goals exact readPieces_letter rfl (by decide) cs

/-- The escaped characters of a string are read up to the closing quote. -/
theorem readPieces_escaped (s : String) (rest : List Char) :
    readPieces (s.toList.flatMap escapeChar ++ '"' :: rest) = some (pieces s, rest) := by
  unfold pieces
  generalize s.toList = cs
  induction cs with
  | nil => rfl
  | cons c cs ih => rw [List.flatMap_cons, List.append_assoc, readPieces_escapeChar, ih]; rfl

theorem not_isSurrogate {n : Nat} (h : n < 0x20) : isLeading n = false ∧ isTrailing n = false := by
  simp only [isLeading, isTrailing, Bool.and_eq_false_iff, decide_eq_false_iff_not]
  omega

theorem text?_pieces (s : String) : text? (pieces s) = some s := by
  have hchars (cs : List Char) : pieceChars? (cs.map piece) = some cs := by
    induction cs with
    | nil => rfl
    | cons c cs ih =>
      rw [List.map_cons, piece]
      split
      · rw [pieceChars?, ih]; rfl
      · split
        · rename_i hcontrol
          obtain ⟨hleading, htrailing⟩ := not_isSurrogate hcontrol
          unfold pieceChars?
          rw [hleading, htrailing, ih, Char.ofNat_toNat]
          rfl
        · rw [pieceChars?, ih]; rfl
  rw [text?, pieces, hchars, Option.map_some, String.ofList_toList]

/-! ## Digits -/

/-- A text that cannot continue a number. -/
def Ends (rest : List Char) : Prop :=
  ∀ c ∈ rest.head?, c.isDigit = false ∧ c ≠ '.' ∧ c ≠ 'e' ∧ c ≠ 'E'

theorem readDigits_append {ds rest : List Char} (hne : ds ≠ []) (hds : ∀ c ∈ ds, c.isDigit)
    (hrest : ∀ c ∈ rest.head?, c.isDigit = false) : readDigits (ds ++ rest) = some (ds, rest) := by
  obtain ⟨htake, hdrop⟩ := takeWhile_digits hds hrest
  rw [readDigits, htake, hdrop]
  cases ds with
  | nil => exact absurd rfl hne
  | cons d ds => rfl

theorem readWhole_append {ds rest : List Char} (hne : ds ≠ []) (hds : ∀ c ∈ ds, c.isDigit)
    (hleading : ds = ['0'] ∨ ds.head? ≠ some '0')
    (hrest : ∀ c ∈ rest.head?, c.isDigit = false) : readWhole (ds ++ rest) = some (ds, rest) := by
  rcases hleading with rfl | hhead
  · cases rest with
    | nil => rfl
    | cons c cs => simp [readWhole, hrest c rfl]
  · cases ds with
    | nil => exact absurd rfl hne
    | cons d ds =>
      rw [List.cons_append, readWhole]
      · exact readDigits_append hne hds hrest
      · rintro cs h
        cases h
        exact hhead rfl

/-! ## Numerals -/

/-- The numeral of some parts of a number. -/
def Numeral.ofSpelling (negative : Bool) (s : Spelling) : Numeral :=
  ⟨negative, s.whole, if s.fraction = [] then none else some s.fraction, s.power⟩

/-- Digits begin with a digit, whatever follows them. -/
theorem isDigit_of_digits_append {n : Nat} {rest cs : List Char} {c : Char}
    (h : Decimal.digits n ++ rest = c :: cs) : c.isDigit := by
  obtain ⟨d, ds, hds⟩ := List.exists_cons_of_ne_nil (Decimal.digits_ne_nil n)
  rw [hds, List.cons_append] at h
  cases h
  exact Decimal.isDigit_of_mem_digits (hds ▸ List.mem_cons_self)

/-- A power of ten is read with its sign, if one is written. -/
theorem readPower_power (plusSign : Bool) (power : Int) {rest : List Char} (hrest : Ends rest) :
    readPower ('e' :: (Spelling.powerSign plusSign power ++ Decimal.digits power.natAbs) ++ rest) =
      some (some power, rest) := by
  have hdigits (n : Nat) : readDigits (Decimal.digits n ++ rest) = some (Decimal.digits n, rest) :=
    readDigits_append (Decimal.digits_ne_nil n) (fun c => Decimal.isDigit_of_mem_digits)
      fun c hc => (hrest c hc).1
  rw [List.cons_append]
  unfold readPower
  dsimp only
  rw [if_pos (.inl rfl)]
  by_cases hneg : power < 0
  · have hpower : -(power.natAbs : Int) = power := by omega
    rw [Spelling.powerSign, if_pos hneg]
    simp only [List.cons_append, List.nil_append, hdigits, Option.map_some,
      Decimal.ofDigits_digits, hpower]
  · have hpower : (power.natAbs : Int) = power := by omega
    by_cases hplus : plusSign = true
    · rw [Spelling.powerSign, if_neg hneg, if_pos hplus]
      simp only [List.cons_append, List.nil_append, hdigits, Option.map_some,
        Decimal.ofDigits_digits, hpower]
    · -- without a sign, the digits follow the letter at once
      rw [Spelling.powerSign, if_neg hneg, if_neg hplus, List.nil_append]
      split
      · rename_i hminus
        exact absurd (isDigit_of_digits_append hminus) (by decide)
      · rename_i hsign
        exact absurd (isDigit_of_digits_append hsign) (by decide)
      · simp only [hdigits, Option.map_some, Decimal.ofDigits_digits, hpower]

theorem readPower_scale (s : Spelling) (plusSign : Bool) {rest : List Char} (hrest : Ends rest) :
    readPower (s.scale plusSign ++ rest) = some (s.power, rest) := by
  unfold Spelling.scale
  split
  · rename_i hnone
    rw [hnone, List.nil_append]
    cases rest with
    | nil => rfl
    | cons c cs =>
      obtain ⟨-, -, he, hE⟩ := hrest c rfl
      unfold readPower
      dsimp only
      rw [if_neg (not_or.2 ⟨he, hE⟩)]
  · rename_i power hsome
    rw [hsome]
    exact readPower_power plusSign power hrest

theorem head_scale {s : Spelling} {plusSign : Bool} {rest : List Char} (hrest : Ends rest) :
    ∀ c ∈ (s.scale plusSign ++ rest).head?, c.isDigit = false ∧ c ≠ '.' := by
  unfold Spelling.scale
  split
  · intro c hc
    exact ⟨(hrest c hc).1, (hrest c hc).2.1⟩
  · rintro c ⟨⟩
    exact ⟨rfl, by decide⟩

theorem readFraction_point {s : Spelling} (hs : s.Formed) {rest : List Char}
    (hrest : ∀ c ∈ rest.head?, c.isDigit = false ∧ c ≠ '.') :
    readFraction (s.point ++ rest) =
      some (if s.fraction = [] then none else some s.fraction, rest) := by
  unfold Spelling.point
  split
  · rw [List.nil_append, readFraction]
    rintro cs rfl
    exact (hrest '.' rfl).2 rfl
  · rename_i hne
    rw [List.cons_append, readFraction, readDigits_append hne hs.isDigit_fraction
      fun c hc => (hrest c hc).1]
    rfl

/-- The parts of a number are read up to the last one. -/
theorem readUnsigned_chars {s : Spelling} (hs : s.Formed) (negative plusSign : Bool)
    {rest : List Char} (hrest : Ends rest) :
    readUnsigned negative (s.chars plusSign ++ rest) = some (.ofSpelling negative s, rest) := by
  have hpoint : ∀ c ∈ (s.point ++ (s.scale plusSign ++ rest)).head?, c.isDigit = false := by
    unfold Spelling.point
    split
    · intro c hc
      exact (head_scale hrest c hc).1
    · rintro c ⟨⟩
      rfl
  rw [Spelling.chars, List.append_assoc, List.append_assoc, readUnsigned,
    readWhole_append hs.whole_ne_nil hs.isDigit_whole hs.leading hpoint]
  simp only [Option.bind_eq_bind, Option.bind_some, readFraction_point hs (head_scale hrest),
    readPower_scale s plusSign hrest]
  rfl

theorem head_chars {s : Spelling} (hs : s.Formed) (plusSign : Bool) :
    ∃ c cs, s.chars plusSign = c :: cs ∧ c.isDigit := by
  obtain ⟨c, cs, hwhole⟩ := List.exists_cons_of_ne_nil hs.whole_ne_nil
  refine ⟨c, cs ++ (s.point ++ s.scale plusSign), by rw [Spelling.chars, hwhole]; rfl, ?_⟩
  exact hs.isDigit_whole c (by rw [hwhole]; exact List.mem_cons_self)

theorem readNumeral_chars {s : Spelling} (hs : s.Formed) (negative plusSign : Bool)
    {rest : List Char} (hrest : Ends rest) :
    readNumeral ((if negative then '-' :: s.chars plusSign else s.chars plusSign) ++ rest) =
      some (.ofSpelling negative s, rest) := by
  cases negative with
  | true => exact readUnsigned_chars hs true plusSign hrest
  | false =>
    obtain ⟨c, cs, hchars, hc⟩ := head_chars hs plusSign
    have hread := readUnsigned_chars hs false plusSign hrest
    simp only [Bool.false_eq_true, if_false]
    rw [hchars] at hread ⊢
    rw [List.cons_append, readNumeral]
    · exact hread
    · rintro rest' h
      cases h
      exact absurd hc (by decide)

/-! ## Numbers -/

/-- The parts of an integer without its sign. -/
def intSpelling (n : Nat) : Spelling := ⟨Decimal.digits n, [], none⟩

theorem formed_intSpelling (n : Nat) : (intSpelling n).Formed := by
  refine ⟨Decimal.digits_ne_nil n, fun c => Decimal.isDigit_of_mem_digits, by simp [intSpelling], ?_⟩
  rcases Nat.eq_zero_or_pos n with rfl | hpos
  · exact .inl rfl
  · exact .inr (Decimal.head_digits hpos.ne')

theorem intChars_eq (n : Int) : intChars n =
    if decide (n < 0) then '-' :: (intSpelling n.natAbs).chars true
    else (intSpelling n.natAbs).chars true := by
  simp [intChars, Spelling.chars, Spelling.point, Spelling.scale, intSpelling]

/-- The parts of `mantissa · 2^exponent`. -/
def finiteSpelling (mantissa : Nat) (exponent : Int) : Spelling :=
  numberLayout.spelling (Shortest.decimal .even mantissa exponent)

theorem formed_finiteSpelling {m : Nat} (hm : m < 2 ^ 53) (e : Int) : (finiteSpelling m e).Formed := by
  apply Layout.formed_spelling
  rcases Nat.eq_zero_or_pos m with rfl | hpos
  · exact fun _ => Int.le_refl 0
  · intro hzero
    have hvalue := Shortest.decimal_value_pos .even (q := e) hpos hm
    rw [Decimal.value, hzero] at hvalue
    simp at hvalue

def isNegative : Sign → Bool
  | .negative => true
  | .positive => false

theorem finite_eq (s : Sign) (m : Nat) (e : Int) : numberLayout.finite s m e =
    if isNegative s then '-' :: (finiteSpelling m e).chars true
    else (finiteSpelling m e).chars true := by
  cases s <;> simp only [Layout.finite, Layout.unsigned_eq] <;> rfl

/-- How a finite number is spelled. -/
def realNumeral (x : Float) : Numeral :=
  match x.toModel.unpack with
  | .zero s => .ofSpelling (isNegative s) (finiteSpelling 0 0)
  | .finite s m e _ => .ofSpelling (isNegative s) (finiteSpelling m e)
  | _ => .ofSpelling false (finiteSpelling 0 0)

/-- How a number is spelled. -/
def Number.numeral : Number → Numeral
  | .integer n => .ofSpelling (n < 0) (intSpelling n.natAbs)
  | .real x => realNumeral x

/-- A number that is written as one. -/
def Number.Finite : Number → Prop
  | .integer _ => True
  | .real x => x.isFinite = true

theorem exists_spelling {n : Number} (h : n.Finite) : ∃ (negative : Bool) (s : Spelling), s.Formed ∧
    n.numeral = .ofSpelling negative s ∧
      numberChars n = if negative then '-' :: s.chars true else s.chars true := by
  cases n with
  | integer n => exact ⟨_, _, formed_intSpelling _, rfl, intChars_eq n⟩
  | real x =>
    have hreal : x.isFinite = true := h
    have hform := finiteForm_unpack hreal
    rw [numberChars, if_pos hreal, Number.numeral, realNumeral, Layout.format]
    generalize x.toModel.unpack = u at *
    cases hform with
    | zero s =>
      exact ⟨_, _, formed_finiteSpelling (by decide) 0, rfl, by rw [String.toList_ofList, finite_eq]⟩
    | @finite s m e hpos hcanonical =>
      exact ⟨_, _, formed_finiteSpelling hcanonical.1 e, rfl,
        by rw [String.toList_ofList, finite_eq]⟩

/-- A number is read in front of any text that cannot continue it. -/
theorem readNumeral_numberChars {n : Number} (h : n.Finite) {rest : List Char} (hrest : Ends rest) :
    readNumeral (numberChars n ++ rest) = some (n.numeral, rest) := by
  obtain ⟨negative, s, hs, hnumeral, hchars⟩ := exists_spelling h
  rw [hchars, hnumeral]
  exact readNumeral_chars hs negative true hrest

/-- A number begins with a digit or a minus sign. -/
theorem head_numberChars {n : Number} (h : n.Finite) :
    ∃ c cs, numberChars n = c :: cs ∧ (c = '-' ∨ c.isDigit) := by
  obtain ⟨negative, s, hs, -, hchars⟩ := exists_spelling h
  obtain ⟨c, cs, hcs, hc⟩ := head_chars hs true
  rw [hchars, hcs]
  cases negative with
  | true => exact ⟨'-', c :: cs, rfl, .inl rfl⟩
  | false => exact ⟨c, cs, rfl, .inr hc⟩

/-! ## Which number it is -/

theorem ofSpelling_inj {a b : Bool} {s t : Spelling}
    (h : Numeral.ofSpelling a s = Numeral.ofSpelling b t) : a = b ∧ s = t := by
  obtain ⟨whole, fraction, power⟩ := s
  obtain ⟨whole', fraction', power'⟩ := t
  simp only [Numeral.ofSpelling, Numeral.mk.injEq] at h
  obtain ⟨hsign, rfl, hfraction, rfl⟩ := h
  have hfraction : fraction = fraction' := by
    split at hfraction <;> split at hfraction <;> simp_all
  exact ⟨hsign, by rw [hfraction]⟩

/-- Spellings of the same decimal are those of the same number. -/
theorem value_eq_of_finiteSpelling {m m' : Nat} {e e' : Int}
    (h : finiteSpelling m e = finiteSpelling m' e') :
    (Shortest.decimal .even m e).value = (Shortest.decimal .even m' e').value := by
  calc (Shortest.decimal .even m e).value = (finiteSpelling m e).decimal.value :=
        (Layout.value_spelling ..).symm
    _ = (finiteSpelling m' e').decimal.value := by rw [h]
    _ = (Shortest.decimal .even m' e').value := Layout.value_spelling ..

theorem isNegative_inj {s t : Sign} (h : isNegative s = isNegative t) : s = t := by
  cases s <;> cases t <;> first | rfl | cases h

/-- The spelling of a finite number tells which number it is. -/
theorem realNumeral_inj {x y : Float} (hx : x.isFinite = true) (hy : y.isFinite = true)
    (h : realNumeral x = realNumeral y) : x = y := by
  have hzero (e : Int) : (Shortest.decimal .even 0 e).value = 0 := by
    rw [Shortest.decimal, if_pos rfl, Decimal.value, Nat.cast_zero, zero_mul]
  have fx := finiteForm_unpack hx
  have fy := finiteForm_unpack hy
  apply unpack_inj
  unfold realNumeral at h
  generalize x.toModel.unpack = u at *
  generalize y.toModel.unpack = v at *
  cases fx with
  | zero s =>
    cases fy with
    | zero t => rw [isNegative_inj (ofSpelling_inj h).1]
    | @finite t m e hpos hcy =>
      have hvalue := value_eq_of_finiteSpelling (ofSpelling_inj h).2
      rw [hzero] at hvalue
      exact absurd hvalue (Shortest.decimal_value_pos .even hpos hcy.1).ne
  | @finite s m e hpos hcx =>
    cases fy with
    | zero t =>
      have hvalue := value_eq_of_finiteSpelling (ofSpelling_inj h).2
      rw [hzero] at hvalue
      exact absurd hvalue (Shortest.decimal_value_pos .even hpos hcx.1).ne'
    | @finite t m' e' hpos' hcy =>
      obtain ⟨hsign, hparts⟩ := ofSpelling_inj h
      obtain ⟨rfl, rfl⟩ := Shortest.decimal_value_inj hcx hcy (value_eq_of_finiteSpelling hparts)
      rw [isNegative_inj hsign]

/-- A number that is not an integer is never spelled as one. -/
theorem isWhole_realNumeral (x : Float) : (realNumeral x).isWhole = false := by
  have hfinite (negative : Bool) (m : Nat) (e : Int) :
      (Numeral.ofSpelling negative (finiteSpelling m e)).isWhole = false := by
    have hparts := Layout.fraction_or_power (show numberLayout.wholeSuffix = true from rfl)
      (Shortest.decimal .even m e)
    change (finiteSpelling m e).fraction ≠ [] ∨ (finiteSpelling m e).power.isSome at hparts
    unfold Numeral.isWhole Numeral.ofSpelling
    dsimp only
    rcases hparts with hfraction | hpower
    · rw [if_neg hfraction]
      rfl
    · rw [Option.isNone_eq_false_iff.2 hpower, Bool.and_false]
  unfold realNumeral
  split <;> exact hfinite ..

/-- The spelling of a number tells which number it is. -/
theorem Number.numeral_inj {a b : Number} (ha : a.Finite) (hb : b.Finite)
    (h : a.numeral = b.numeral) : a = b := by
  cases a with
  | integer m =>
    cases b with
    | integer n =>
      obtain ⟨hsign, hparts⟩ := ofSpelling_inj h
      have hdigits : m.natAbs = n.natAbs := by
        rw [← Decimal.ofDigits_digits m.natAbs, ← Decimal.ofDigits_digits n.natAbs]
        exact congrArg (fun s => Decimal.ofDigits s.whole) hparts
      rw [decide_eq_decide] at hsign
      congr 1
      omega
    | real y => exact absurd (congrArg Numeral.isWhole h) (by simp [numeral, isWhole_realNumeral]; rfl)
  | real x =>
    cases b with
    | integer n => exact absurd (congrArg Numeral.isWhole h) (by simp [numeral, isWhole_realNumeral]; rfl)
    | real y => rw [realNumeral_inj ha hb h]

end Interleave.Json
