/-!
# Comma-separated values

A row is a line of fields between commas. A field that begins with a double quote goes on to the next
one, over commas and line ends; inside it two quotes stand for one, and what follows the closing quote
up to the comma belongs to the field. A quote later in a field is a plain character. A row ends at a
line feed or a carriage return, and lines without any character are no rows. A byte order mark at the
start is dropped, and a quote that is never closed runs to the end.

Results:
* `rows_blank`: line ends before a row are skipped.
-/
namespace Interleave.Csv

/-- The bytes of one field. -/
abbrev Field := List UInt8

/-- A byte that ends a row. -/
def isLineEnd (b : UInt8) : Bool := b = 10 || b = 13

/-- The place of the next byte of a row. -/
inductive Place where
  /-- At the start of a field. -/
  | start
  /-- In a field without quotes, or behind the closing quote. -/
  | plain
  /-- Between quotes. -/
  | quoted
  /-- Behind a quote that may be the closing one. -/
  | quote
  deriving DecidableEq, Repr

/-- An open row: the open field and the fields before it, both in reverse. -/
structure Pen where
  place : Place := .start
  field : Field := []
  fields : List Field := []
  deriving DecidableEq, Repr

namespace Pen

/-- The row with one more byte in its field. -/
def put (p : Pen) (place : Place) (b : UInt8) : Pen := { p with place, field := b :: p.field }

/-- The row with its field closed and a new one open. -/
def comma (p : Pen) : Pen := ⟨.start, [], p.field.reverse :: p.fields⟩

/-- The fields of the row. -/
def close (p : Pen) : List Field := (p.field.reverse :: p.fields).reverse

/-- The row after a byte outside quotes, or nothing if it ends there. -/
def outside (p : Pen) (b : UInt8) : Option Pen :=
  if b = 44 then some p.comma else if isLineEnd b then none else some (p.put .plain b)

/-- The row after a byte, or nothing if it ends there. -/
def next (p : Pen) (b : UInt8) : Option Pen :=
  match p.place with
  | .start => if b = 34 then some { p with place := .quoted } else p.outside b
  | .plain => p.outside b
  | .quoted => some (if b = 34 then { p with place := .quote } else p.put .quoted b)
  | .quote => if b = 34 then some (p.put .quoted b) else p.outside b

end Pen

/-- The rows of bytes, with a row open or none. -/
def rowsFrom : Option Pen → List UInt8 → List (List Field)
  | none, [] => []
  | some p, [] => [p.close]
  | none, b :: bs => if isLineEnd b then rowsFrom none bs else rowsFrom (({} : Pen).next b) bs
  | some p, b :: bs =>
    match p.next b with
    | some p => rowsFrom (some p) bs
    | none => p.close :: rowsFrom none bs

/-- The bytes without a byte order mark. -/
def dropMark : List UInt8 → List UInt8
  | 0xEF :: 0xBB :: 0xBF :: bs => bs
  | bs => bs

def rows (content : List UInt8) : List (List Field) := rowsFrom none (dropMark content)

theorem rows_blank {b : UInt8} (h : isLineEnd b) (bs : List UInt8) :
    rowsFrom none (b :: bs) = rowsFrom none bs := by
  simp [rowsFrom, h]

end Interleave.Csv
