import Interleave.Config.Format
import Interleave.Log.Emitter
import Interleave.Simulation
/-!
# Events of a run

What the log of a run says, as data: `narration` turns the observations of a run into events, and
`record` turns an event into a line. The first observation of a run is not told, every other one is,
by a controller step or a hold. A change of phase is told before the observation that shows it, and
the convergence of a phase after it.

Results:
* `record_run`: an event takes up one trace id and writes one line, which a sink may refuse.
-/
namespace Interleave

/-- Something that the log of a run tells. -/
inductive RunEvent where
  | started (config : RunConfig)
  /-- The phase changes with the point of this iteration. -/
  | switched (before after : Phase) (iteration : Nat)
  | stepped (point : TracePoint) (decision : Decision)
  | held (point : TracePoint)
  | converged (point : TracePoint)
  | completed (trace : Trace) (duration : Nat)
  | failed (fault : ControlFault) (duration : Nat)

/-- How the log calls a controller step. -/
def stepEvent : String := "controller_step"

namespace RunEvent

def name : RunEvent → String
  | started _ => "simulation_start"
  | switched .. => "phase_switch"
  | stepped .. => stepEvent
  | held _ => "hold"
  | converged _ => "phase_converged"
  | completed .. => "simulation_complete"
  | failed .. => "simulation_failed"

def level : RunEvent → Level
  | stepped .. | held _ => .debug
  | failed .. => .error
  | _ => .info

/-- The markers of a trace, with its length and its last ratio. -/
def traceDetails (t : Trace) : Json :=
  .object
    [("points", .nat t.points.length), ("final_ratio", .orNull .nat t.finalRatio),
      ("primary_converged_at", .orNull .nat t.primaryConvergedAt),
      ("switched_at", .orNull .nat t.switchedAt),
      ("secondary_converged_at", .orNull .nat t.secondaryConvergedAt)]

/-- The outcome of a run that ends in a fault. -/
def outcomeOf : ControlFault → Outcome
  | .noConvergence _ => .timeout
  | _ => .error

/-- The entry with what the event says. -/
def fill (e : LogEntry) : RunEvent → LogEntry
  | started config => e.withDetails config.toJson
  | switched a b i =>
    (e.withPhase b).withDetails (.object [("from", .string a.name), ("at", .nat i)])
  | stepped p d => (e.withPoint p).withDecision d
  | held p => e.withPoint p
  | converged p => e.withPoint p
  | completed t duration =>
    ((e.withOutcome .pass).withDuration duration).withDetails (traceDetails t)
  | failed fault duration =>
    ((e.withOutcome (outcomeOf fault)).withDuration duration).withDetails
      (.object [("error", .string fault.message)])

/-- Writes the line of an event. -/
def record (event : RunEvent) : Logging IoFault Unit := do
  let entry ← Emitter.entry event.level event.name
  Emitter.emitEntry (event.fill entry)

/-- The line of the event from an emitter that is about to write it. -/
def line (event : RunEvent) (e : Emitter) : String :=
  (event.fill (e.draft event.level event.name)).line

theorem fill_traceId (entry : LogEntry) (event : RunEvent) :
    (event.fill entry).traceId = entry.traceId := by cases event <;> rfl

theorem fill_runId (entry : LogEntry) (event : RunEvent) :
    (event.fill entry).runId = entry.runId := by cases event <;> rfl

theorem record_run (event : RunEvent) (e : Emitter) :
    event.record.run.run e = (Emitter.write (event.line e)).run.run e.next.2 := by
  have hid : (event.fill (e.draft event.level event.name)).traceId ≠ "" := by
    rw [fill_traceId]
    exact Emitter.traceId_ne_empty e.runId e.component (e.count + 1)
  have hrun : (event.fill (e.draft event.level event.name)).runId = some e.runId := by
    rw [fill_runId]
    rfl
  have h := Emitter.emitEntry_run e.next.2 hid
  rw [hrun, Option.getD_some, ← hrun] at h
  exact h

/-- Writes the lines of events until one is refused. -/
def recordAll : List RunEvent → Logging IoFault Unit
  | [] => pure ()
  | e :: es => do
    record e
    recordAll es

end RunEvent

/-- The events of an observation that follows the point `previous`. -/
def Observation.events (previous : Option TracePoint) (o : Observation) : List RunEvent :=
  let switch := (previous.filter (·.phase ≠ o.point.phase)).map fun p =>
    RunEvent.switched p.phase o.point.phase o.point.iteration
  let same := previous.any (·.ratio = o.point.ratio)
  let here : List RunEvent := match o.decision with
    | some d => .stepped o.point d :: if same then [.converged o.point] else []
    | none => if o.point.iteration = 0 then [] else [.held o.point]
  switch.toList ++ here

/-- The events of observations in their order. -/
def narration (previous : Option TracePoint) : List Observation → List RunEvent
  | [] => []
  | o :: os => o.events previous ++ narration (some o.point) os

end Interleave
