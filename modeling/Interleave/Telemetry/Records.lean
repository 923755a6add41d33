import Interleave.Number.Literal
import Interleave.Sample
import Interleave.Text.Lines
import Interleave.Text.Search
/-!
# Bandwidth records

A record is a block of three lines between blank ones: two with a `Total <digits> MB/s` somewhere in
them, for local and remote memory, and a last one of the form `<label>: <digits>`. Any other block is
skipped and reported by its first bad line, or, if it has a wrong number of lines, by its fourth line or
else its first. A last block of fewer than three lines is a record cut short and not reported.

Results:
* `blocks_append`: a blank line separates the blocks before it from those after it.
-/
namespace Interleave.Telemetry

open Text (NumberedLine)

/-- What was read of a stream of records. -/
structure RecordRead where
  samples : List Sample := []
  /-- Why each skipped record was skipped. -/
  skipped : List ControlFault := []
  /-- The stream ends inside a record. -/
  truncated : Bool := false
  deriving DecidableEq, Repr

/-- The fault of a line that does not read. -/
def malformed (line : NumberedLine) : ControlFault := .malformedRecord line.number line.text

/-- A line with nothing on it but white space. -/
def isBlankLine (line : NumberedLine) : Bool := Text.isBlankText line.text

/-- `Total <digits> MB/s` at the head of a text: the digits and the text after. -/
def throughput? (cs : List Char) : Option (List Char × List Char) := do
  let (digits, rest) ← Text.digitRun? (← Text.afterWord? ['T', 'o', 't', 'a', 'l', ' '] cs)
  pure (digits, ← Text.afterWord? [' ', 'M', 'B', '/', 's'] rest)

/-- `<label>: <digits>` and nothing else: the digits. The label ends at the first colon. -/
def labelled? (cs : List Char) : Option (List Char) :=
  match cs.takeWhile (· ≠ ':'), cs.dropWhile (· ≠ ':') with
  | _ :: _, ':' :: cs => do
    let (digits, rest) ← Text.digitRun? (Text.dropBlank cs)
    if Text.dropBlank rest = [] then some digits else none
  | _, _ => none

/-- The number of a word of digits. -/
def count? (digits : List Char) : Option Nat :=
  Literal.natUpTo? maxCount (String.ofList digits)

/-- The number that a pattern finds on a line. -/
def read? (pattern : List Char → Option (List Char)) (line : NumberedLine) :
    Except ControlFault Binary64 :=
  match (pattern line.text.toList).bind count? with
  | some n => .ok (.ofFloat (Float.ofNat n))
  | none => .error (malformed line)

/-- The bandwidth on a line of one kind of memory. -/
def readTotal (line : NumberedLine) : Except ControlFault Binary64 :=
  read? (fun cs => (Text.first? throughput? cs).map Prod.fst) line

def readBlock (block : List NumberedLine) : Except ControlFault Sample :=
  match block with
  | [near, far, total] => do
    pure ⟨← readTotal near, ← readTotal far, ← read? labelled? total⟩
  | [] => .error (malformed ⟨0, ""⟩)
  | [line] | [line, _] | _ :: _ :: _ :: line :: _ => .error (malformed line)

/-- The blocks of lines between blank ones, where `current` holds the lines of the open block in
reverse. -/
def blocksFrom (current : List NumberedLine) : List NumberedLine → List (List NumberedLine)
  | [] => if current = [] then [] else [current.reverse]
  | l :: ls =>
    if isBlankLine l then
      if current = [] then blocksFrom [] ls else current.reverse :: blocksFrom [] ls
    else blocksFrom (l :: current) ls

/-- The blocks of lines between blank ones. -/
def blocks (lines : List NumberedLine) : List (List NumberedLine) := blocksFrom [] lines

/-- What was read, with one more block in front. -/
def RecordRead.cons (block : List NumberedLine) (read : RecordRead) : RecordRead :=
  match readBlock block with
  | .ok sample => { read with samples := sample :: read.samples }
  | .error fault => { read with skipped := fault :: read.skipped }

/-- Reads blocks in their order. -/
def readBlocks : List (List NumberedLine) → RecordRead
  | [] => {}
  | [block] => if block.length < 3 then { truncated := true } else RecordRead.cons block {}
  | block :: blocks => (readBlocks blocks).cons block

/-- Reads a stream of records. -/
def readRecords (text : String) : RecordRead := readBlocks (blocks (Text.numberedLines text))

theorem blocksFrom_append (current a b : List NumberedLine) (l : NumberedLine)
    (h : isBlankLine l) :
    blocksFrom current (a ++ l :: b) = blocksFrom current (a ++ [l]) ++ blocksFrom [] b := by
  induction a generalizing current with
  | nil => by_cases hc : current = [] <;> simp [blocksFrom, h, hc]
  | cons x a ih =>
    by_cases hx : isBlankLine x <;> by_cases hc : current = [] <;> simp [blocksFrom, hx, hc, ih]

theorem blocks_append (a b : List NumberedLine) (l : NumberedLine) (h : isBlankLine l) :
    blocks (a ++ l :: b) = blocks (a ++ [l]) ++ blocks b :=
  blocksFrom_append [] a b l h

end Interleave.Telemetry
