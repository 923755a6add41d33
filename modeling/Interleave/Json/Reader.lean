import Interleave.Json.Syntax
/-!
# Reading JSON

`Json.syntax?` reads the grammar of RFC 8259 and nothing more: no comments, no trailing commas, no
leading zeros or plus signs, no control characters inside strings, nothing but blanks around the
value. `Json.read?` also fits the text into a value.
-/
namespace Interleave.Json

/-- The four blanks of JSON. -/
def isGap (c : Char) : Bool := c = ' ' || c = '\t' || c = '\n' || c = '\r'

/-- The text without its leading blanks. -/
def skipGap (cs : List Char) : List Char := cs.dropWhile isGap

/-- The value of a hexadecimal digit in either case. -/
def hexValue? (c : Char) : Option Nat :=
  if '0' ≤ c ∧ c ≤ '9' then some (c.toNat - 48)
  else if 'a' ≤ c ∧ c ≤ 'f' then some (c.toNat - 87)
  else if 'A' ≤ c ∧ c ≤ 'F' then some (c.toNat - 55)
  else none

/-- The code unit of four hexadecimal digits. -/
def hexUnit? (a b c d : Char) : Option Nat := do
  let a ← hexValue? a
  let b ← hexValue? b
  let c ← hexValue? c
  let d ← hexValue? d
  pure (((a * 16 + b) * 16 + c) * 16 + d)

/-- The character that a one-letter escape stands for. -/
def escaped? : Char → Option Char
  | '"' => some '"'
  | '\\' => some '\\'
  | '/' => some '/'
  | 'b' => some '\x08'
  | 'f' => some '\x0c'
  | 'n' => some '\n'
  | 'r' => some '\r'
  | 't' => some '\t'
  | _ => none

/-- The rest of a string after its opening quote, and the text after the closing one. -/
def readPieces : List Char → Option (List Piece × List Char)
  | [] => none
  | '"' :: cs => some ([], cs)
  | '\\' :: 'u' :: a :: b :: c :: d :: cs => do
    let code ← hexUnit? a b c d
    let (ps, rest) ← readPieces cs
    pure (.unit code :: ps, rest)
  | '\\' :: e :: cs => do
    let c ← escaped? e
    let (ps, rest) ← readPieces cs
    pure (.char c :: ps, rest)
  | c :: cs =>
    if c = '\\' ∨ c.toNat < 0x20 then none
    else do
      let (ps, rest) ← readPieces cs
      pure (.char c :: ps, rest)

/-- Digits at the head of a text, at least one, and the rest. -/
def readDigits (cs : List Char) : Option (List Char × List Char) :=
  match cs.takeWhile Char.isDigit with
  | [] => none
  | ds => some (ds, cs.dropWhile Char.isDigit)

/-- The digits before the point: a zero alone or digits without a leading zero. -/
def readWhole : List Char → Option (List Char × List Char)
  | '0' :: cs =>
    match cs with
    | c :: _ => if c.isDigit then none else some (['0'], cs)
    | [] => some (['0'], [])
  | cs => readDigits cs

/-- A point with digits after it, if there is one. -/
def readFraction : List Char → Option (Option (List Char) × List Char)
  | '.' :: cs => (readDigits cs).map fun (ds, rest) => (some ds, rest)
  | cs => some (none, cs)

/-- A power of ten, if there is one. -/
def readPower : List Char → Option (Option Int × List Char)
  | c :: cs =>
    if c = 'e' ∨ c = 'E' then
      match cs with
      | '-' :: cs => (readDigits cs).map fun (ds, rest) => (some (-(Decimal.ofDigits ds : Int)), rest)
      | '+' :: cs => (readDigits cs).map fun (ds, rest) => (some (Decimal.ofDigits ds : Int), rest)
      | cs => (readDigits cs).map fun (ds, rest) => (some (Decimal.ofDigits ds : Int), rest)
    else some (none, c :: cs)
  | [] => some (none, [])

/-- A number without its sign. -/
def readUnsigned (negative : Bool) (cs : List Char) : Option (Numeral × List Char) := do
  let (whole, cs) ← readWhole cs
  let (fraction, cs) ← readFraction cs
  let (power, cs) ← readPower cs
  pure (⟨negative, whole, fraction, power⟩, cs)

def readNumeral : List Char → Option (Numeral × List Char)
  | '-' :: cs => readUnsigned true cs
  | cs => readUnsigned false cs

/-- At most `n` items after an opening bracket, each read by `item`, up to the closing bracket. -/
def readItems (item : List Char → Option (Syntax × List Char)) :
    (n : Nat) → List Char → Option (List Syntax × List Char)
  | 0, _ => none
  | n + 1, cs => do
    let (x, cs) ← item cs
    match skipGap cs with
    | ',' :: cs =>
      let (xs, cs) ← readItems item n cs
      pure (x :: xs, cs)
    | ']' :: cs => pure ([x], cs)
    | _ => none

/-- At most `n` members after an opening brace, up to the closing brace. -/
def readMembers (item : List Char → Option (Syntax × List Char)) :
    (n : Nat) → List Char → Option (List (List Piece × Syntax) × List Char)
  | 0, _ => none
  | n + 1, cs =>
    match skipGap cs with
    | '"' :: cs => do
      let (key, cs) ← readPieces cs
      match skipGap cs with
      | ':' :: cs =>
        let (x, cs) ← item cs
        match skipGap cs with
        | ',' :: cs =>
          let (ms, cs) ← readMembers item n cs
          pure ((key, x) :: ms, cs)
        | '\x7d' :: cs => pure ([(key, x)], cs)
        | _ => none
      | _ => none
    | _ => none

/-- A value in which at most `depth` values are nested, and the text after it. -/
def readSyntax : (depth : Nat) → List Char → Option (Syntax × List Char)
  | 0, _ => none
  | depth + 1, cs =>
    match skipGap cs with
    | 'n' :: 'u' :: 'l' :: 'l' :: cs => some (.null, cs)
    | 't' :: 'r' :: 'u' :: 'e' :: cs => some (.bool true, cs)
    | 'f' :: 'a' :: 'l' :: 's' :: 'e' :: cs => some (.bool false, cs)
    | '"' :: cs => (readPieces cs).map fun (ps, cs) => (.string ps, cs)
    | '[' :: cs =>
      match skipGap cs with
      | ']' :: cs => some (.array [], cs)
      | cs => (readItems (readSyntax depth) cs.length cs).map fun (xs, cs) => (.array xs, cs)
    | '\x7b' :: cs =>
      match skipGap cs with
      | '\x7d' :: cs => some (.object [], cs)
      | cs => (readMembers (readSyntax depth) cs.length cs).map fun (ms, cs) => (.object ms, cs)
    | cs => (readNumeral cs).map fun (n, cs) => (.number n, cs)

/-- The one value of a text. A text nests no deeper than it is long. -/
def syntax? (text : String) : Option Syntax :=
  match readSyntax (text.length + 1) text.toList with
  | some (s, rest) => if skipGap rest = [] then some s else none
  | none => none

/-- The one value of a text, fitted. -/
def read? (text : String) : Option Json := (syntax? text).bind (·.value? maxDepth)

end Interleave.Json
