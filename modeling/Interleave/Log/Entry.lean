import Interleave.Json.Printer
import Interleave.Json.Reader
import Interleave.Number.Literal
import Interleave.Trace
/-!
# Log entries

A log is a list of lines, each of which holds one entry as JSON. Four fields are always there; the
others are left out when an entry does not have them. Free-form details are kept in canonical form,
so that a line and its entry determine each other.
-/
namespace Interleave

/-- How severe an entry is. -/
inductive Level where
  | trace
  | debug
  | info
  | warn
  | error
  | fatal
  deriving DecidableEq, Repr

namespace Level

def name : Level → String
  | trace => "trace"
  | debug => "debug"
  | info => "info"
  | warn => "warn"
  | error => "error"
  | fatal => "fatal"

def all : List Level := [trace, debug, info, warn, error, fatal]

def ofName? (text : String) : Option Level := all.find? (·.name = text)

theorem ofName?_name (l : Level) : ofName? l.name = some l := by cases l <;> decide

end Level

/-- How a run ended. -/
inductive Outcome where
  | pass
  | fail
  | error
  | timeout
  deriving DecidableEq, Repr

namespace Outcome

def name : Outcome → String
  | pass => "pass"
  | fail => "fail"
  | error => "error"
  | timeout => "timeout"

def all : List Outcome := [pass, fail, error, timeout]

def ofName? (text : String) : Option Outcome := all.find? (·.name = text)

theorem ofName?_name (o : Outcome) : ofName? o.name = some o := by cases o <;> decide

end Outcome

structure LogEntry where
  timestamp : String
  /-- The run, the component and the number of the entry, separated by double colons. -/
  traceId : String
  level : Level
  event : String
  runId : Option String := none
  /-- The part of the tools that speaks. -/
  component : Option String := none
  phase : Option Phase := none
  iteration : Option Nat := none
  ratio : Option Nat := none
  step : Option Int := none
  bandwidth : Option Float := none
  /-- The name of the rule that proposed the step. -/
  rule : Option String := none
  outcome : Option Outcome := none
  /-- How long the run took, in milliseconds. -/
  duration : Option Nat := none
  /-- The paths of files that belong to the entry. -/
  artifacts : Option (List String) := none
  details : Option Json := none
  deriving Repr

namespace LogEntry

/-! ## Filling in -/

def withRun (e : LogEntry) (runId : String) : LogEntry := { e with runId := some runId }

def withComponent (e : LogEntry) (component : String) : LogEntry :=
  { e with component := some component }

def withPhase (e : LogEntry) (phase : Phase) : LogEntry := { e with phase := some phase }

/-- The entry of a point, without its rule. -/
def withPoint (e : LogEntry) (p : TracePoint) : LogEntry :=
  { e with
    phase := some p.phase, iteration := some p.iteration, ratio := some p.ratio
    step := some p.step, bandwidth := some p.bandwidth }

def withOutcome (e : LogEntry) (outcome : Outcome) : LogEntry := { e with outcome := some outcome }

def withDuration (e : LogEntry) (duration : Nat) : LogEntry := { e with duration := some duration }

def withArtifacts (e : LogEntry) (paths : List String) : LogEntry := { e with artifacts := some paths }

def withDetails (e : LogEntry) (details : Json) : LogEntry :=
  { e with details := some details.canonical }

/-- What a decision adds to the rule that it follows. -/
def decisionDetails (d : Decision) : Json :=
  .object
    [("proposed_step", .int d.proposed), ("dead_zone", .bool d.deadZone),
      ("saturated", .bool d.saturated), ("ratio_clamped", .bool d.ratioClamped)]

def withDecision (e : LogEntry) (d : Decision) : LogEntry :=
  { e with rule := some d.rule.name }.withDetails (decisionDetails d)

/-! ## Writing and reading -/

/-- The entry as JSON. A bandwidth that is not finite is written as `null`. -/
def toJson (e : LogEntry) : Json :=
  .object
    ([("timestamp", .string e.timestamp), ("trace_id", .string e.traceId),
        ("level", .string e.level.name), ("event", .string e.event)] ++
      Json.member? "run_id" .string e.runId ++
      Json.member? "component" .string e.component ++
      Json.member? "phase" (fun p => .string p.name) e.phase ++
      Json.member? "iteration" .nat e.iteration ++
      Json.member? "ratio" .nat e.ratio ++
      Json.member? "step" .int e.step ++
      Json.member? "bandwidth" .real e.bandwidth ++
      Json.member? "rule" .string e.rule ++
      Json.member? "outcome" (fun o => .string o.name) e.outcome ++
      Json.member? "duration_ms" .nat e.duration ++
      Json.member? "artifact_refs" (fun ps => .array (ps.map .string)) e.artifacts ++
      Json.member? "details" id e.details)

def line (e : LogEntry) : String := e.toJson.compact

/-- An optional field: one that is not there or `null` is empty. -/
def optional? (view : Json → Option α) : Option Json → Option (Option α)
  | none | some .null => some none
  | some value => (view value).map some

/-- The entry that an object in canonical form holds. Members of other names do not matter. -/
def ofMembers? (members : List (String × Json)) : Option LogEntry := do
  let required (key : String) := members.lookup key
  let text (key : String) := optional? Json.string? (members.lookup key)
  pure
    { timestamp := ← (← required "timestamp").string?
      traceId := ← (← required "trace_id").string?
      level := ← (← required "level").choice? Level.ofName?
      event := ← (← required "event").string?
      runId := ← text "run_id"
      component := ← text "component"
      phase := ← optional? (Json.choice? Phase.ofName?) (members.lookup "phase")
      iteration := ← optional? (Json.natUpTo? maxCount) (members.lookup "iteration")
      ratio := ← optional? (Json.natUpTo? 255) (members.lookup "ratio")
      step := ← optional? (Json.intWithin? Step.minValue Step.maxValue) (members.lookup "step")
      bandwidth := ← optional? Json.float? (members.lookup "bandwidth")
      rule := ← text "rule"
      outcome := ← optional? (Json.choice? Outcome.ofName?) (members.lookup "outcome")
      duration := ← optional? (Json.natUpTo? maxCount) (members.lookup "duration_ms")
      artifacts := ← optional? (Json.list? Json.string?) (members.lookup "artifact_refs")
      details := ← optional? some (members.lookup "details") }

end LogEntry

end Interleave
