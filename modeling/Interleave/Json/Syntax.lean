import Interleave.Json.Numeral
/-!
# JSON syntax

A JSON text says more than a value does: how a number is spelled, which escapes a string uses, and
how deep it nests. `Json.Syntax` keeps that, so that a part of a text that nobody asks for is never
fitted into a number, a string or a bounded depth. `Syntax.value?` does the fitting: a number must be
within the range of binary64, the surrogate escapes of a string must come in pairs, and at most
`depth` arrays and objects may be nested.
-/
namespace Interleave.Json

/-- One element of a string: a character, or a code unit given by `\u`. -/
inductive Piece where
  | char (c : Char)
  | unit (code : Nat)
  deriving DecidableEq, Repr

/-- A JSON text without its blanks. -/
inductive Syntax where
  | null
  | bool (value : Bool)
  | number (numeral : Numeral)
  | string (pieces : List Piece)
  | array (items : List Syntax)
  | object (members : List (List Piece × Syntax))
  deriving Repr, Inhabited

/-- A code unit of the first half of a surrogate pair. -/
def isLeading (code : Nat) : Bool := 0xD800 ≤ code && code < 0xDC00

/-- A code unit of the second half of a surrogate pair. -/
def isTrailing (code : Nat) : Bool := 0xDC00 ≤ code && code < 0xE000

/-- The characters of a string, or nothing if a surrogate stands alone. -/
def pieceChars? : List Piece → Option (List Char)
  | [] => some []
  | .char c :: ps => (pieceChars? ps).map (c :: ·)
  | .unit code :: ps =>
    if isLeading code then
      match ps with
      | .unit next :: ps =>
        if isTrailing next then
          (pieceChars? ps).map
            (Char.ofNat (0x10000 + (code - 0xD800) * 0x400 + (next - 0xDC00)) :: ·)
        else none
      | _ => none
    else if isTrailing code then none
    else (pieceChars? ps).map (Char.ofNat code :: ·)

def text? (pieces : List Piece) : Option String := (pieceChars? pieces).map String.ofList

namespace Syntax

/-- The value, with at most `depth` arrays and objects inside each other. -/
def value? : (depth : Nat) → Syntax → Option Json
  | _, null => some .null
  | _, bool b => some (.bool b)
  | _, number n => n.value?.map .number
  | _, string ps => (text? ps).map .string
  | 0, array _ => none
  | depth + 1, array items => (items.mapM (value? depth)).map .array
  | 0, object _ => none
  | depth + 1, object members =>
    (members.mapM fun (key, item) => do
      let key ← text? key
      let value ← value? depth item
      pure (key, value)).map .object

end Syntax

/-- The number of arrays and objects that may be nested in a value. -/
def maxDepth : Nat := 127

end Interleave.Json
