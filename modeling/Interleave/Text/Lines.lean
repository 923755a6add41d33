/-!
# Lines

A line ends at a line feed, or at a carriage return followed by one. A carriage return anywhere else
belongs to its line, and text after the last line feed is a last line only if there is any.

Results:
* `lines_append`: a text that ends in a line feed splits independently of what follows it.
* `number_append`: numbering goes on where the first part ends.
-/
namespace Interleave.Text

/-- The line without the carriage return of its line ending; the argument is reversed. -/
def endLine : List Char → List Char
  | '\r' :: cs => cs.reverse
  | cs => cs.reverse

/-- The lines of a text, where `current` holds the characters of the open line in reverse. -/
def linesFrom (current : List Char) : List Char → List (List Char)
  | [] => if current = [] then [] else [current.reverse]
  | '\n' :: cs => endLine current :: linesFrom [] cs
  | c :: cs => linesFrom (c :: current) cs

def lines (text : String) : List String := (linesFrom [] text.toList).map String.ofList

/-- A line and its number, counted from 1. -/
structure NumberedLine where
  number : Nat
  text : String
  deriving DecidableEq, Repr

/-- The lines of a list, numbered from `first`. -/
def number (first : Nat) : List String → List NumberedLine
  | [] => []
  | l :: ls => ⟨first, l⟩ :: number (first + 1) ls

def numberedLines (text : String) : List NumberedLine := number 1 (lines text)

theorem linesFrom_append (current a b : List Char) :
    linesFrom current (a ++ '\n' :: b) = linesFrom current (a ++ ['\n']) ++ linesFrom [] b := by
  induction a generalizing current with
  | nil => simp [linesFrom]
  | cons c a ih =>
    by_cases h : c = '\n'
    · subst h; simp [linesFrom, ih]
    · simp [linesFrom, ih]

theorem lines_append (a b : String) : lines (a ++ "\n" ++ b) = lines (a ++ "\n") ++ lines b := by
  have h := linesFrom_append [] a.toList b.toList
  simp [lines, String.toList_append, h]

theorem number_append (first : Nat) (a b : List String) :
    number first (a ++ b) = number first a ++ number (first + a.length) b := by
  induction a generalizing first with
  | nil => simp [number]
  | cons l ls ih => simp [number, ih, Nat.add_assoc, Nat.add_comm 1]

end Interleave.Text
