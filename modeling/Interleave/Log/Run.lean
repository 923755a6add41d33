import Interleave.Log.Event
/-!
# Logged runs

A logged run tells its start, its observations and its end. The run does not depend on its log: when
the sink refuses a line, the story breaks off, and the run that succeeds all the same reports the fault
of the sink. The fault of a failing run comes before that of its log.
-/
namespace Interleave

/-- A step whose faults are those of reading and writing. -/
def Logging.io (x : Logging IoFault α) : Logging Fault α := ExceptT.adapt Fault.io x

/-- Writes the log of a run that took `duration` milliseconds and gives its result. -/
def Run.log (run : Run) (config : RunConfig) (duration : Nat) : Logging Fault Trace := do
  (RunEvent.record (.started config)).io
  let told ← observing (RunEvent.recordAll (narration none run.observed))
  match run.result with
  | .ok trace =>
    if let .error fault := told then throw (.io fault)
    (RunEvent.record (.completed trace duration)).io
    pure trace
  | .error fault =>
    let _ ← observing (RunEvent.record (.failed fault duration))
    throw (.control fault)
where
  /-- The result of a step, which does not stop the steps after it. -/
  observing {α : Type} (x : Logging IoFault α) : Logging Fault (Except IoFault α) :=
    ExceptT.mk (x.run >>= fun result => pure (.ok result))

/-- Runs a configuration on its curves and logs the run. A configuration that is refused leaves no
line. -/
def RunConfig.runLogged (c : RunConfig) (primary : Curve) (secondary : Option Curve)
    (duration : Nat) : Logging Fault Trace :=
  match Simulator.ofCurves c primary secondary with
  | .error fault => throw (.control fault)
  | .ok s => s.run.log s.runConfig duration

end Interleave
