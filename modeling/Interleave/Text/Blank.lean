/-!
# White space

`isBlank` is the Unicode property White_Space. A blank line holds nothing else, and trimming removes
it from both ends.

Results:
* `dropBlank_eq_nil_iff`, `trim_eq_empty_iff`: what trims to nothing is blank throughout.
-/
namespace Interleave.Text

/-- The characters with the Unicode property White_Space. -/
def blankRanges : List (Nat × Nat) :=
  [(0x09, 0x0D), (0x20, 0x20), (0x85, 0x85), (0xA0, 0xA0), (0x1680, 0x1680), (0x2000, 0x200A),
   (0x2028, 0x2029), (0x202F, 0x202F), (0x205F, 0x205F), (0x3000, 0x3000)]

/-- Some range of the list holds the character. -/
def inRanges (ranges : List (Nat × Nat)) (c : Char) : Bool :=
  ranges.any fun r => r.1 ≤ c.toNat && c.toNat ≤ r.2

def isBlank (c : Char) : Bool := inRanges blankRanges c

/-- The text without its leading white space. -/
def dropBlank (cs : List Char) : List Char := cs.dropWhile isBlank

/-- The text without its trailing white space. -/
def dropBlankEnd (cs : List Char) : List Char := (dropBlank cs.reverse).reverse

/-- The text without white space at either end. -/
def trim (text : String) : String := String.ofList (dropBlankEnd (dropBlank text.toList))

/-- The text holds white space only. -/
def isBlankText (text : String) : Bool := text.toList.all isBlank

theorem dropBlank_eq_nil_iff (cs : List Char) : dropBlank cs = [] ↔ cs.all isBlank := by
  induction cs with
  | nil => simp [dropBlank]
  | cons c cs ih => by_cases h : isBlank c <;> simp_all [dropBlank]

theorem all_isBlank_dropBlank (cs : List Char) : (dropBlank cs).all isBlank = cs.all isBlank := by
  induction cs with
  | nil => rfl
  | cons c cs ih =>
    by_cases hc : isBlank c = true
    · rw [dropBlank, List.dropWhile_cons_of_pos hc, List.all_cons, hc, Bool.true_and]
      exact ih
    · rw [dropBlank, List.dropWhile_cons_of_neg hc]

theorem trim_eq_empty_iff (text : String) : trim text = "" ↔ isBlankText text := by
  rw [trim, String.ofList_eq_empty_iff, dropBlankEnd, List.reverse_eq_nil_iff, dropBlank_eq_nil_iff, List.all_reverse,
    all_isBlank_dropBlank, isBlankText]

end Interleave.Text
