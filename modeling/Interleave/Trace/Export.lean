import Interleave.Json.Printer
import Interleave.Json.Reader
import Interleave.Json.Record
import Interleave.Number.Literal
import Interleave.Trace
/-!
# Traces in files

A trace is written as JSON, with its markers, or as a table of its points. JSON leaves out a rule that
is not there and writes `null` for a marker that is not there; the table has neither. A trace in JSON
reads back.
-/
namespace Interleave

inductive TraceFormat where
  | json
  | csv
  deriving DecidableEq, Repr, Inhabited

namespace TraceFormat

def name : TraceFormat → String
  | json => "json"
  | csv => "csv"

def ofName? (text : String) : Option TraceFormat := [json, csv].find? (·.name = text)

/-- The format of a name in either case. -/
def ofWord? (word : String) : Option TraceFormat :=
  ofName? (String.ofList (word.toList.map Char.toLower))

/-- The kind of artifact that a trace file is. -/
def kind : TraceFormat → String
  | json => "trace_json"
  | csv => "trace_csv"

end TraceFormat

namespace TracePoint

def toJson (p : TracePoint) : Json :=
  .object
    ([("iteration", .nat p.iteration), ("phase", .string p.phase.name), ("ratio", .nat p.ratio),
        ("step", .int p.step), ("bandwidth", .real p.bandwidth)] ++
      Json.member? "rule" (fun r => .string r.name) p.rule)

def ofSyntax? (s : Json.Syntax) : Option TracePoint := do
  match ← s.slots? ["iteration", "phase", "ratio", "step", "bandwidth", "rule"] with
  | [iteration, phase, ratio, step, bandwidth, rule] =>
    pure
      { iteration := ← iteration.required (·.fit? (Json.natUpTo? maxCount))
        phase := ← phase.required (·.fit? (Json.choice? Phase.ofName?))
        ratio := ← ratio.required (·.fit? (Json.natUpTo? 255))
        step := ← step.required (·.fit? (Json.intWithin? Step.minValue Step.maxValue))
        bandwidth := ← bandwidth.required (·.fit? Json.float?)
        rule := ← rule.optional (·.fit? (Json.choice? Rule.ofName?)) }
  | _ => none

/-- The fields of the point in a table. -/
def fields (p : TracePoint) : List String :=
  [toString p.iteration, p.phase.name, toString p.ratio, toString p.step, plainText p.bandwidth]

end TracePoint

namespace Trace

def toJson (t : Trace) : Json :=
  .object
    [("points", .array (t.points.map TracePoint.toJson)),
      ("primary_converged_at", .orNull .nat t.primaryConvergedAt),
      ("switched_at", .orNull .nat t.switchedAt),
      ("secondary_converged_at", .orNull .nat t.secondaryConvergedAt)]

def ofSyntax? (s : Json.Syntax) : Option Trace := do
  let count (s : Json.Syntax) := s.fit? (Json.natUpTo? maxCount)
  match ← s.slots? ["points", "primary_converged_at", "switched_at", "secondary_converged_at"] with
  | [points, primaryAt, switchedAt, secondaryAt] =>
    pure
      { points := ← points.required (·.list? TracePoint.ofSyntax?)
        primaryConvergedAt := ← primaryAt.optional count
        switchedAt := ← switchedAt.optional count
        secondaryConvergedAt := ← secondaryAt.optional count }
  | _ => none

def ofText? (text : String) : Option Trace := (Json.syntax? text).bind ofSyntax?

def tableHeader : List String := ["iteration", "phase", "ratio", "step", "bandwidth"]

/-- A row of the table, with its line end. -/
def tableRow (fields : List String) : String := ",".intercalate fields ++ "\n"

/-- The points as a table. No field needs quotes. -/
def toTable (t : Trace) : String :=
  String.join (tableRow tableHeader :: t.points.map fun p => tableRow p.fields)

def render (t : Trace) : TraceFormat → String
  | .json => t.toJson.pretty
  | .csv => t.toTable

end Trace

end Interleave
