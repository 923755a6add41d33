import Interleave.Number.Binary64
import Interleave.Number.Decimal
/-!
# Number literals

What may stand where a number is expected: a field of a table, an option, an environment variable or
a run of telemetry digits. Only the ASCII digits count, and nothing may surround the number.

* a natural number is digits, with at most a plus sign before them;
* an integer may also have a minus sign;
* a real number is digits with at most one point and an optional power of ten, or `inf`, `infinity`
  or `nan` in any case, each with an optional sign. A point needs a digit on at least one side.
-/
namespace Interleave

/-- The largest count of points, lines, bytes or cycles: it fits a 64-bit word. -/
def maxCount : Nat := 0xFFFFFFFFFFFFFFFF

namespace Literal

/-- One or more ASCII digits and nothing else. -/
def digits? (cs : List Char) : Option Nat :=
  if cs ≠ [] ∧ cs.all Char.isDigit then some (Decimal.ofDigits cs) else none

def nat? : List Char → Option Nat
  | '+' :: cs => digits? cs
  | cs => digits? cs

def int? : List Char → Option Int
  | '+' :: cs => (digits? cs).map Int.ofNat
  | '-' :: cs => (digits? cs).map fun n => -(n : Int)
  | cs => (digits? cs).map Int.ofNat

/-- A natural number of at most `max`. -/
def natUpTo? (max : Nat) (text : String) : Option Nat :=
  (nat? text.toList).filter (· ≤ max)

/-- An integer between `min` and `max`. -/
def intWithin? (min max : Int) (text : String) : Option Int :=
  (int? text.toList).filter fun n => min ≤ n && n ≤ max

/-- The power of ten after `e` or `E`; no power is the zeroth. -/
def power? : List Char → Option Int
  | [] => some 0
  | c :: cs => if c = 'e' ∨ c = 'E' then int? cs else none

/-- The digits of a real number, its point and its power of ten. -/
def decimal? (cs : List Char) : Option Decimal :=
  let whole := cs.takeWhile Char.isDigit
  let rest := cs.dropWhile Char.isDigit
  match rest with
  | '.' :: rest =>
    let fraction := rest.takeWhile Char.isDigit
    if whole = [] ∧ fraction = [] then none
    else (power? (rest.dropWhile Char.isDigit)).map (Decimal.ofParts whole fraction)
  | rest => if whole = [] then none else (power? rest).map (Decimal.ofParts whole [])

/-- A real number without a sign. -/
def unsigned? (cs : List Char) : Option Binary64 :=
  let word := String.ofList (cs.map Char.toLower)
  if word = "inf" ∨ word = "infinity" then some .infinity
  else if word = "nan" then some .nan
  else (decimal? cs).map fun d => .ofFloat d.toFloat

/-- A real number in its stored form. -/
def binary64? (text : String) : Option Binary64 :=
  match text.toList with
  | '+' :: cs => unsigned? cs
  | '-' :: cs => (unsigned? cs).map .neg
  | cs => unsigned? cs

def float? (text : String) : Option Float := (binary64? text).map Binary64.toFloat

end Literal

end Interleave
