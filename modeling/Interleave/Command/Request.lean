import Interleave.Command.Options
import Interleave.Config.Format
import Interleave.Curve.Table
import Interleave.Trace.Export
/-!
# Requests

A request is a command line that makes sense: the command is known, every option belongs to it, its
values read, what has to be given is given, and nothing excludes something else.
-/
namespace Interleave

inductive TelemetryFormat where
  /-- Blocks of three lines. -/
  | records
  /-- The stream of a monitor of nodes. -/
  | node
  deriving DecidableEq, Repr

namespace TelemetryFormat

def name : TelemetryFormat → String
  | records => "records"
  | node => "node"

def ofName? (text : String) : Option TelemetryFormat := [records, node].find? (·.name = text)

end TelemetryFormat

/-- Bandwidth telemetry: a file and its layout. -/
structure TelemetrySource where
  path : String
  format : TelemetryFormat
  deriving DecidableEq, Repr

/-- Where a curve comes from. -/
inductive CurveSource where
  | builtIn (phase : Phase)
  | file (path : String)
  deriving DecidableEq, Repr

inductive Workload where
  /-- The built-in workload of two phases. -/
  | reference
  | recorded (primary : String) (secondary : Option String)
  deriving DecidableEq, Repr

/-- Where a trace goes. -/
inductive Destination where
  | console
  | file (path : String)
  /-- A file, and an index that lists it. -/
  | indexed (path index : String)
  deriving DecidableEq, Repr

def Destination.path? : Destination → Option String
  | console => none
  | file path | indexed path _ => some path

/-- Fields of a configuration that the command line replaces. -/
structure ConfigChanges where
  minStep : Option Int := none
  maxStep : Option Int := none
  lowBandwidthThreshold : Option Float := none
  rounding : Option Rounding := none
  maxIterations : Option Nat := none
  holdIterations : Option Nat := none
  deriving Repr

/-- The configuration with the fields replaced. -/
def ConfigChanges.apply (changes : ConfigChanges) (c : RunConfig) : RunConfig where
  controller :=
    { minStep := changes.minStep.getD c.controller.minStep
      maxStep := changes.maxStep.getD c.controller.maxStep
      lowBandwidthThreshold :=
        changes.lowBandwidthThreshold.getD c.controller.lowBandwidthThreshold
      rounding := changes.rounding.getD c.controller.rounding }
  simulator :=
    { c.simulator with
      maxIterations := changes.maxIterations.getD c.simulator.maxIterations
      holdIterations := changes.holdIterations.getD c.simulator.holdIterations }

/-- A simulation to run. -/
structure SimulationRequest where
  workload : Workload
  /-- The bandwidth column of tables. -/
  column : String
  /-- A configuration file, instead of the environment. -/
  config : Option String
  changes : ConfigChanges
  destination : Destination
  format : TraceFormat
  log : Option String
  runId : String

/-- What the command line asks for. -/
inductive Request where
  | simulate (simulation : SimulationRequest)
  | percentile (source : TelemetrySource) (percentile : Int)
  | replay (source : TelemetrySource) (window : Nat) (percentile : Int) (rounding : Option Rounding)
  | latency (path : String)
  | queryCurve (source : CurveSource) (column : String) (ratios : List Nat)
  | validateLog (path : String)

namespace Request

open Options

/-- An integer of 32 bits. -/
def step? (word : String) : Option Int := Literal.intWithin? Step.minValue Step.maxValue word

/-- A number of points. -/
def count? (word : String) : Option Nat := Literal.natUpTo? maxCount word

/-- A number of samples, at least one. -/
def window? (word : String) : Option Nat := (count? word).filter (0 < ·)

/-- A ratio as an option takes it: any byte. -/
def ratio? (word : String) : Option Nat := (Literal.intWithin? 0 255 word).map Int.toNat

def simulationRules : List OptionRule :=
  [.word "primary", .word "secondary", .flag "builtin", .word "bw-column", .word "config",
    .word "min-step", .word "max-step", .word "low-bw-threshold", .word "rounding",
    .word "max-iterations", .word "hold-iterations", .word "output", .word "format", .word "log",
    .word "artifact-index", .word "run-id"]

/-- The curves of a simulation. The built-in workload excludes files. -/
def workload? (given : List Given) : Option Workload := do
  let primary ← optional given "primary" path?
  let secondary ← optional given "secondary" path?
  match has given "builtin", primary, secondary with
  | true, none, none => some .reference
  | false, some primary, secondary => some (.recorded primary secondary)
  | _, _, _ => none

/-- Where the trace of a simulation goes. An index needs a file to list. -/
def destination? (given : List Given) : Option Destination := do
  let output ← optional given "output" path?
  let index ← optional given "artifact-index" path?
  match output, index with
  | none, none => some .console
  | some output, none => some (.file output)
  | some output, some index => some (.indexed output index)
  | none, some _ => none

/-- The fields of the configuration that options replace. -/
def changes? (given : List Given) : Option ConfigChanges := do
  pure
    { minStep := ← optional given "min-step" step?
      maxStep := ← optional given "max-step" step?
      lowBandwidthThreshold := ← optional given "low-bw-threshold" Literal.float?
      rounding := ← optional given "rounding" Rounding.ofName?
      maxIterations := ← optional given "max-iterations" count?
      holdIterations := ← optional given "hold-iterations" count? }

/-- The name of the bandwidth column. -/
def column? (given : List Given) : Option String :=
  withDefault given "bw-column" text CurveTable.bandwidthColumn

def simulation? (words : List String) : Option SimulationRequest := do
  let given ← ofWords? simulationRules words
  pure
    { workload := ← workload? given
      column := ← column? given
      config := ← optional given "config" path?
      changes := ← changes? given
      destination := ← destination? given
      format := ← withDefault given "format" TraceFormat.ofName? .json
      log := ← optional given "log" path?
      runId := ← withDefault given "run-id" text "dmi-sim" }

def source? (given : List Given) : Option TelemetrySource := do
  pure
    { path := ← required given "input" path?
      format := ← withDefault given "format" TelemetryFormat.ofName? .records }

def percentile? (words : List String) : Option Request := do
  let given ← ofWords? [.word "input", .number "percentile", .word "format"] words
  pure (.percentile (← source? given) (← withDefault given "percentile" step? 95))

def replay? (words : List String) : Option Request := do
  let given ← ofWords?
    [.word "input", .word "format", .word "window", .number "percentile", .word "rounding"] words
  pure (.replay (← source? given) (← withDefault given "window" window? 10)
    (← withDefault given "percentile" step? 80) (← optional given "rounding" Rounding.ofName?))

/-- The one path of a request that has no other option. -/
def input? (words : List String) : Option String := do
  required (← ofWords? [.word "input"] words) "input" path?

/-- The request of a query. A built-in curve excludes a file. -/
def queryCurve? (words : List String) : Option Request := do
  let given ← ofWords?
    [.word "curve", .word "builtin", .word "bw-column", .words "ratio"] words
  let file ← optional given "curve" path?
  let phase ← optional given "builtin" Phase.ofName?
  let source ← match file, phase with
    | some path, none => some (.file path)
    | none, some phase => some (.builtIn phase)
    | _, _ => none
  pure (.queryCurve source (← column? given) (← (texts given "ratio").mapM ratio?))

def ofWords? : List String → Option Request
  | "simulate" :: words => (simulation? words).map .simulate
  | "percentile" :: words => percentile? words
  | "replay" :: words => replay? words
  | "latency" :: words => (input? words).map .latency
  | "curve-query" :: words => queryCurve? words
  | "validate-log" :: words => (input? words).map .validateLog
  | _ => none

end Request

end Interleave
