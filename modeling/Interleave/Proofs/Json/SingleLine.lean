import Interleave.Proofs.Json.Tokens
import Interleave.Text.Lines

/-!
# A value takes one line

The printer escapes every control character, so a printed value has none, and no line break among them.
A text without control characters is a line of its own when a line feed follows it.

Results:
* `all_isVisible_compactChars`: a printed value has no control character.
* `lines_compact`: a printed value and a line feed are one line.
-/
namespace Interleave

namespace Json

/-- The character is not a control character. -/
def isVisible (c : Char) : Bool := 0x20 ≤ c.toNat

theorem isVisible_of_isDigit {c : Char} (h : c.isDigit) : isVisible c := by
  have hcode : 48 ≤ c.toNat := (Char.isDigit_iff_toNat.1 h).1
  exact decide_eq_true (Nat.le_trans (by decide) hcode)

theorem all_isVisible_of_isDigit {cs : List Char} (h : ∀ c ∈ cs, c.isDigit) : cs.all isVisible :=
  List.all_eq_true.2 fun c hc => isVisible_of_isDigit (h c hc)

theorem isVisible_hexDigit {n : Nat} (h : n < 16) : isVisible (hexDigit n) := by
  have hall : ∀ n : Fin 16, isVisible (hexDigit n) := by decide
  exact hall ⟨n, h⟩

theorem all_isVisible_escapeChar (c : Char) : (escapeChar c).all isVisible := by
  unfold escapeChar
  split
  case h_8 =>
    split
    · have hlow := isVisible_hexDigit (n := c.toNat % 16) (Nat.mod_lt _ (by decide))
      have hhigh := isVisible_hexDigit (n := c.toNat / 16) (by omega)
      simp only [List.all_cons, List.all_nil, hlow, hhigh]
      rfl
    · rename_i hshown
      simpa [isVisible] using hshown
  all_goals rfl

theorem all_isVisible_stringChars (s : String) : (stringChars s).all isVisible := by
  have hescaped : (s.toList.flatMap escapeChar).all isVisible := by
    rw [List.all_flatMap]
    exact List.all_eq_true.2 fun c _ => all_isVisible_escapeChar c
  rw [stringChars, List.cons_append, List.all_cons, List.all_append, hescaped]
  rfl

theorem all_isVisible_scale (s : Spelling) (plusSign : Bool) : (s.scale plusSign).all isVisible := by
  unfold Spelling.scale
  split
  · rfl
  · rename_i power _
    have hsign : (Spelling.powerSign plusSign power).all isVisible := by
      unfold Spelling.powerSign
      split
      · rfl
      · split <;> rfl
    have hdigits := all_isVisible_of_isDigit fun c => Decimal.isDigit_of_mem_digits (n := power.natAbs)
    rw [List.all_cons, List.all_append, hsign, hdigits]
    rfl

theorem all_isVisible_chars {s : Spelling} (hs : s.Formed) (plusSign : Bool) :
    (s.chars plusSign).all isVisible := by
  have hpoint : s.point.all isVisible := by
    unfold Spelling.point
    split
    · rfl
    · rw [List.all_cons, all_isVisible_of_isDigit hs.isDigit_fraction]
      rfl
  rw [Spelling.chars, List.all_append, List.all_append, hpoint, all_isVisible_scale,
    all_isVisible_of_isDigit hs.isDigit_whole]
  rfl

theorem all_isVisible_numberChars (n : Number) : (numberChars n).all isVisible := by
  have hfinite (h : n.Finite) : (numberChars n).all isVisible := by
    obtain ⟨negative, s, hs, -, hchars⟩ := exists_spelling h
    have hchars' := all_isVisible_chars hs true
    rw [hchars]
    cases negative with
    | true => exact hchars'
    | false => exact hchars'
  cases n with
  | integer n => exact hfinite trivial
  | real x =>
    by_cases hx : x.isFinite = true
    · exact hfinite hx
    · rw [numberChars, if_neg hx]
      rfl

mutual

theorem all_isVisible_compactChars : ∀ j : Json, (compactChars j).all isVisible
  | null | bool true | bool false | array [] | object [] => rfl
  | number n => all_isVisible_numberChars n
  | string s => all_isVisible_stringChars s
  | array (x :: xs) => by
    rw [compactChars, List.all_append, List.all_cons, all_isVisible_compactChars x,
      all_isVisible_compactItems xs]
    rfl
  | object ((k, v) :: ms) => by
    rw [compactChars, List.all_append, List.all_append, List.all_cons, List.all_cons,
      all_isVisible_stringChars k, all_isVisible_compactChars v, all_isVisible_compactMembers ms]
    rfl

theorem all_isVisible_compactItems : ∀ xs : List Json, (compactItems xs).all isVisible
  | [] => rfl
  | x :: xs => by
    rw [compactItems, List.all_append, List.all_cons, all_isVisible_compactChars x,
      all_isVisible_compactItems xs]
    rfl

theorem all_isVisible_compactMembers : ∀ ms : List (String × Json), (compactMembers ms).all isVisible
  | [] => rfl
  | (k, v) :: ms => by
    rw [compactMembers, List.all_append, List.all_append, List.all_cons, List.all_cons,
      all_isVisible_stringChars k, all_isVisible_compactChars v, all_isVisible_compactMembers ms]
    rfl

end

end Json

/-! ## Lines -/

namespace Text

theorem linesFrom_line {cs current : List Char} (h : '\n' ∉ cs) :
    linesFrom current (cs ++ ['\n']) = [endLine (cs.reverse ++ current)] := by
  induction cs generalizing current with
  | nil => rfl
  | cons c cs ih =>
    rw [List.mem_cons, not_or] at h
    rw [List.cons_append, linesFrom, ih h.2, List.reverse_cons, List.append_assoc]
    · rfl
    · exact Ne.symm h.1

theorem endLine_reverse {cs : List Char} (h : '\r' ∉ cs) : endLine cs.reverse = cs := by
  unfold endLine
  split
  · rename_i heq
    have hmem : '\r' ∈ cs.reverse := by
      rw [heq]
      exact List.mem_cons_self
    exact absurd (List.mem_reverse.1 hmem) h
  · exact List.reverse_reverse cs

end Text

/-- A printed value and a line feed are one line. -/
theorem Json.lines_compact (j : Json) : Text.lines (j.compact ++ "\n") = [j.compact] := by
  have hfree {c : Char} (hc : isVisible c = false) : c ∉ compactChars j := by
    intro h
    have hvisible := List.all_eq_true.1 (all_isVisible_compactChars j) c h
    rw [hc] at hvisible
    cases hvisible
  have hline : Text.linesFrom [] (compactChars j ++ ['\n']) = _ :=
    Text.linesFrom_line (hfree (by decide))
  rw [List.append_nil, Text.endLine_reverse (hfree (by decide))] at hline
  rw [Text.lines, compact, String.toList_append, String.toList_ofList]
  change (Text.linesFrom [] (compactChars j ++ ['\n'])).map String.ofList = _
  rw [hline]
  rfl

end Interleave
