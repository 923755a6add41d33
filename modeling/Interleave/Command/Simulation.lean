import Interleave.Artifact
import Interleave.Command.Desk
import Interleave.Command.Request
import Interleave.Config.Overrides
import Interleave.Curve.File
import Interleave.Log.Run
/-!
# The simulation command

Reads the configuration and the curves, runs the simulation with its log, and delivers the trace. The log
file is created before the run, so a run that fails leaves its log behind, and only a run that succeeds
writes a trace.
-/
namespace Interleave

variable {m : Type → Type} [Monad m] [Desk m]

open Desk Attempt

/-- The controller configuration that the environment asks for. -/
def environmentConfig : m ControllerConfig := do
  let given ← ControllerConfig.environmentNames.filterMapM fun name => do
    pure ((← environment name).map (name, ·))
  pure (({} : ControllerConfig).withOverrides (given.lookup ·))

def configFile (path : String) : Attempt m RunConfig := do
  let content ← file (read path)
  match RunConfig.ofText? (← ofFault (decodeText content)) with
  | none => throw (.fault .json)
  | some config => pure config

def curveFile (path column : String) : Attempt m Curve := do
  ofFault (Curve.ofFile path column (← read path))

/-- A curve of the built-in workload. -/
def builtInCurve (phase : Phase) : Attempt m Curve := ofControl (Sweep.reference phase).curve

/-- The curves of a workload. Of two files the second phase is read first. -/
def Workload.curves (column : String) : Workload → Attempt m (Curve × Option Curve)
  | reference => do
    let primary ← builtInCurve .primary
    let secondary ← builtInCurve .secondary
    pure (primary, some secondary)
  | recorded primary secondary => do
    let secondary ← match secondary with
      | none => pure none
      | some path => some <$> curveFile path column
    pure (← curveFile primary column, secondary)

/-- A log that is kept in a file, or nowhere. -/
structure KeptLog (m : Type → Type) [Desk m] where
  emitter : Emitter
  file : Option (OpenFile m)
  /-- How many lines are in the file. -/
  saved : Nat := 0

namespace KeptLog

/-- Stamps the lines to come by the clock of the desk. -/
def onTime (log : KeptLog m) : m (KeptLog m) := do
  pure { log with emitter := { log.emitter with time := ← clock } }

/-- Brings the file up to date. -/
def flush (log : KeptLog m) : Attempt m (KeptLog m) := do
  match log.file with
  | none => pure log
  | some opened =>
    let lines := log.emitter.sink.lines
    let text := String.join ((lines.toList.drop log.saved).map (· ++ "\n"))
    let opened ← Attempt.file (append opened text.toUTF8)
    pure { log with file := some opened, saved := lines.size }

/-- Does something with the emitter. The file is brought up to date whatever comes of it. -/
def perform (log : KeptLog m) (step : Logging Fault α) : Attempt m (α × KeptLog m) := do
  let (result, emitter) := Id.run (step.run.run log.emitter)
  let log ← { log with emitter }.flush
  pure (← ofFault result, log)

end KeptLog

/-- An optional number, as the report of a run shows it. -/
def shownMarker : Option Nat → String
  | none => "None"
  | some n => s!"Some({n})"

/-- The report of a run that has converged. -/
def Trace.report (t : Trace) : String :=
  let final := t.finalRatio.getD 0
  s!"Converged: points={t.points.length}, final_ratio={final}, " ++
    s!"primary_at={shownMarker t.primaryConvergedAt}, " ++
    s!"switched_at={shownMarker t.switchedAt}, " ++
    s!"secondary_at={shownMarker t.secondaryConvergedAt}"

/-- Writes a file and makes the directories above it. -/
def writeOutput (path text : String) : Attempt m Unit := do
  file (makeParents path)
  file (write path text.toUTF8)

/-- Logs that a file was written. -/
def Emitter.nameFile (path : String) : Logging IoFault Unit := do
  let entry ← entry .info "artifacts_written"
  emitEntry (entry.withArtifacts [path])

/-- The index with the log of a simulation, if there is one. -/
def SimulationRequest.listLog (r : SimulationRequest) (listed : ArtifactIndex) :
    Attempt m ArtifactIndex := do
  match r.log with
  | none => pure listed
  | some path => pure (listed.addBytes path "log_jsonl" (← file (read path)))

/-- Writes a trace to a file and lists it, with the log of the run, in an index. -/
def deliverIndexed (r : SimulationRequest) (trace : Trace) (log : KeptLog m) (path index : String) :
    Attempt m Unit := do
  let begun ← now
  let body := trace.render r.format
  file (write path body.toUTF8)
  let listed := ArtifactIndex.addTrace { runId := r.runId, generated := begun } path r.format body
  let (_, _) ← (← log.onTime).perform (Emitter.nameFile path).io
  let listed ← r.listLog listed
  writeOutput index listed.text
  report s!"Artifact index: {index}"

def deliver (r : SimulationRequest) (trace : Trace) (log : KeptLog m) : Attempt m Unit := do
  match r.destination with
  | .console => print (trace.render r.format)
  | .file path => writeOutput path (trace.render r.format)
  | .indexed path index => deliverIndexed r trace log path index
  if let some path := r.destination.path? then
    report s!"Trace written to {path}"

/-- Opens the log of a simulation. -/
def openLog (r : SimulationRequest) : Attempt m (KeptLog m) := do
  let opened ← match r.log with
    | none => pure none
    | some path => some <$> file (create path)
  pure { emitter := { runId := r.runId, component := "simulator" }, file := opened }

/-- The configuration of a simulation: that of a file or of the environment, with the changes. -/
def SimulationRequest.configuration (r : SimulationRequest) : Attempt m RunConfig := do
  let config ← match r.config with
    | some path => configFile path
    | none => do
      pure { controller := ← environmentConfig, simulator := {} }
  pure (r.changes.apply config)

/-- Runs a simulation and logs it. What becomes of the trace plays no part in this. -/
def SimulationRequest.simulated (r : SimulationRequest) : Attempt m (Trace × KeptLog m) := do
  let config ← r.configuration
  let (primary, secondary) ← r.workload.curves r.column
  let log ← openLog r
  let second := match secondary with
    | none => "none"
    | some curve => s!"{curve.size} points"
  report s!"Simulating: primary {primary.size} points, secondary {second}"
  let log ← log.onTime
  let simulator ← ofFault ((Simulator.ofCurves config primary secondary).mapError .control)
  let (run, duration) ← timed fun _ => simulator.run
  let (trace, log) ← log.perform (run.log config duration)
  report trace.report
  pure (trace, log)

def SimulationRequest.perform (r : SimulationRequest) : Attempt m Unit := do
  let (trace, log) ← r.simulated
  deliver r trace log

end Interleave
