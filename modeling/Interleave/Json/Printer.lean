import Interleave.Json.Value
import Interleave.Number.Layout
/-!
# Writing JSON

`Json.compact` writes a value on one line without blanks; `Json.pretty` puts every item and member on
a line of its own, indented by two blanks per level. Numbers take the fewest digits that read back:
written out for powers of the leading digit from -5 to 15, with an exponent otherwise. Inside a
string, a quote, a backslash and the control characters are escaped, and nothing else is.
-/
namespace Interleave.Json

/-- Numbers in JSON: `0.00001`, `1.0`, `1e+16`. -/
def numberLayout : Layout where
  positional power := -5 ≤ power && power ≤ 15
  wholeSuffix := true
  plusSign := true
  tie := .even

/-- The digits of an integer. -/
def intChars (n : Int) : List Char :=
  if n < 0 then '-' :: Decimal.digits n.natAbs else Decimal.digits n.natAbs

/-- A number; `null` stands for one that is not finite. -/
def numberChars : Number → List Char
  | .integer n => intChars n
  | .real x => if x.isFinite then (numberLayout.format x).toList else ['n', 'u', 'l', 'l']

/-- A hexadecimal digit in lower case. -/
def hexDigit (n : Nat) : Char := if n < 10 then Char.ofNat (48 + n) else Char.ofNat (87 + n)

/-- One character of a string. -/
def escapeChar (c : Char) : List Char :=
  match c with
  | '"' => ['\\', '"']
  | '\\' => ['\\', '\\']
  | '\x08' => ['\\', 'b']
  | '\x0c' => ['\\', 'f']
  | '\n' => ['\\', 'n']
  | '\r' => ['\\', 'r']
  | '\t' => ['\\', 't']
  | c =>
    if c.toNat < 0x20 then
      ['\\', 'u', '0', '0', hexDigit (c.toNat / 16), hexDigit (c.toNat % 16)]
    else [c]

/-- A string in quotes. -/
def stringChars (s : String) : List Char := '"' :: s.toList.flatMap escapeChar ++ ['"']

mutual

/-- The value on one line. -/
def compactChars : Json → List Char
  | null => ['n', 'u', 'l', 'l']
  | bool true => ['t', 'r', 'u', 'e']
  | bool false => ['f', 'a', 'l', 's', 'e']
  | number n => numberChars n
  | string s => stringChars s
  | array [] => ['[', ']']
  | array (x :: xs) => '[' :: compactChars x ++ compactItems xs
  | object [] => ['\x7b', '\x7d']
  | object ((k, v) :: ms) => '\x7b' :: stringChars k ++ ':' :: compactChars v ++ compactMembers ms

/-- The items after the first, and the end of the array. -/
def compactItems : List Json → List Char
  | [] => [']']
  | x :: xs => ',' :: compactChars x ++ compactItems xs

/-- The members after the first, and the end of the object. -/
def compactMembers : List (String × Json) → List Char
  | [] => ['\x7d']
  | (k, v) :: ms => ',' :: stringChars k ++ ':' :: compactChars v ++ compactMembers ms

end

/-- A new line at a nesting depth. -/
def newLine (depth : Nat) : List Char := '\n' :: List.replicate (2 * depth) ' '

mutual

/-- The value over several lines, its own lines indented below `depth`. -/
def prettyChars (depth : Nat) : Json → List Char
  | null => ['n', 'u', 'l', 'l']
  | bool true => ['t', 'r', 'u', 'e']
  | bool false => ['f', 'a', 'l', 's', 'e']
  | number n => numberChars n
  | string s => stringChars s
  | array [] => ['[', ']']
  | array (x :: xs) =>
    '[' :: newLine (depth + 1) ++ prettyChars (depth + 1) x ++ prettyItems depth xs
  | object [] => ['\x7b', '\x7d']
  | object ((k, v) :: ms) =>
    '\x7b' :: newLine (depth + 1) ++ stringChars k ++ ':' :: ' ' :: prettyChars (depth + 1) v ++
      prettyMembers depth ms

/-- The items after the first, and the end of the array. -/
def prettyItems (depth : Nat) : List Json → List Char
  | [] => newLine depth ++ [']']
  | x :: xs => ',' :: newLine (depth + 1) ++ prettyChars (depth + 1) x ++ prettyItems depth xs

/-- The members after the first, and the end of the object. -/
def prettyMembers (depth : Nat) : List (String × Json) → List Char
  | [] => newLine depth ++ ['\x7d']
  | (k, v) :: ms =>
    ',' :: newLine (depth + 1) ++ stringChars k ++ ':' :: ' ' :: prettyChars (depth + 1) v ++
      prettyMembers depth ms

end

/-- The value on one line. -/
def compact (value : Json) : String := String.ofList value.compactChars

/-- The value over several lines. -/
def pretty (value : Json) : String := String.ofList (value.prettyChars 0)

end Interleave.Json
