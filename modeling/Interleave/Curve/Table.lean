import Interleave.Csv
import Interleave.Curve
import Interleave.Number.Literal
import Interleave.Text.Blank
/-!
# Curves in tables

A table of comma-separated values has a header row, a column `DRAM Ratio` of whole percents and a
column of bandwidths; other columns are passed over. White space around a field does not count. The
first bad row is the fault of the table: its length first, then its encoding, then its ratio and its
bandwidth. Only then are the points checked against each other.
-/
namespace Interleave

namespace CurveTable

/-- The header of the ratio column. -/
def ratioColumn : String := "DRAM Ratio"

/-- The header of the bandwidth column if no other is asked for. -/
def bandwidthColumn : String := "BW"

/-- The text of a field without white space around it. -/
def fieldText? (field : Csv.Field) : Option String :=
  (String.fromUTF8? ⟨field.toArray⟩).map Text.trim

/-- The texts of a row. -/
def rowTexts (row : List Csv.Field) : Except Fault (List String) :=
  match row.mapM fieldText? with
  | some texts => .ok texts
  | none => .error (.table .notUtf8)

/-- The place of the first column of a name. -/
def columnOf (header : List String) (name : String) : Except Fault Nat :=
  match header.findIdx? (· = name) with
  | some i => .ok i
  | none => .error (.missingColumn name)

/-- Where a table keeps what. -/
structure Columns where
  width : Nat
  ratioAt : Nat
  bandwidthAt : Nat
  /-- The header of the bandwidth column. -/
  bandwidth : String
  deriving DecidableEq, Repr

/-- The columns of a header row. -/
def Columns.ofHeader (bandwidth : String) (header : List Csv.Field) : Except Fault Columns := do
  let texts ← rowTexts header
  let ratioAt ← columnOf texts ratioColumn
  let bandwidthAt ← columnOf texts bandwidth
  pure ⟨texts.length, ratioAt, bandwidthAt, bandwidth⟩

/-- The ratio that a field holds. -/
def readRatio (row : Nat) (text : String) : Except Fault Nat :=
  match Literal.natUpTo? 0xFFFFFFFF text with
  | none => .error (.invalidField row ratioColumn text)
  | some ratio =>
    if ratio ≤ maxRatio then .ok ratio else .error (.control (.ratioOutOfRange ratio 0 maxRatio))

/-- The bandwidth that a field holds. -/
def readBandwidth (row : Nat) (column text : String) : Except Fault Float :=
  match Literal.float? text with
  | none => .error (.invalidField row column text)
  | some x => .ok x

/-- The point of a row, where the header is row 1. -/
def readRow (columns : Columns) (row : Nat) (fields : List Csv.Field) :
    Except Fault (CurvePoint Float) := do
  if fields.length ≠ columns.width then .error (.table (.unequalLengths columns.width fields.length))
  else
    let texts ← rowTexts fields
    let ratio ← readRatio row (texts.getD columns.ratioAt "")
    let bandwidth ← readBandwidth row columns.bandwidth (texts.getD columns.bandwidthAt "")
    pure ⟨ratio, bandwidth⟩

/-- The points of rows, numbered from `row` on. -/
def readRows (columns : Columns) (row : Nat) :
    List (List Csv.Field) → Except Fault (List (CurvePoint Float))
  | [] => .ok []
  | r :: rs => do
    let p ← readRow columns row r
    let ps ← readRows columns (row + 1) rs
    pure (p :: ps)

/-- The curve of a table, with its bandwidths in the column `bandwidth`. -/
def read (bandwidth : String) (content : ByteArray) : Except Fault Curve := do
  let rows := Csv.rows content.toList
  let columns ← Columns.ofHeader bandwidth (rows.headD [])
  let points ← readRows columns 2 rows.tail
  (Curve.ofPoints points).mapError .control

end CurveTable

end Interleave
