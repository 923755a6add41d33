import Interleave.Command.Simulation
import Interleave.Telemetry.Latency
import Interleave.Telemetry.Node
import Interleave.Window.Format
/-!
# The telemetry commands

One command picks a sample out of recorded bandwidths, one replays them through the controller, and one
sums up latencies. Each prints one JSON value.
-/
namespace Interleave

variable {m : Type → Type} [Monad m] [Desk m]

open Desk Attempt

def textFile (path : String) : Attempt m String := do
  ofFault (decodeText (← file (read path)))

/-- The samples of telemetry. Records that do not read are reported and left out. -/
def TelemetrySource.samples (source : TelemetrySource) : Attempt m (List Sample) := do
  let text ← textFile source.path
  let samples ← match source.format with
    | .node => do
      pure (← ofFault (Telemetry.readNodes text)).samples
    | .records => do
      let records := Telemetry.readRecords text
      for fault in records.skipped do
        report s!"Skipping record: {fault.message}"
      if records.truncated then
        report "Trailing partial record ignored"
      pure records.samples
  report s!"Read {samples.length} samples from {source.path}"
  pure samples

/-- Prints the sample of a percentile. -/
def printPercentile (source : TelemetrySource) (percentile : Int) : Attempt m Unit := do
  let samples ← source.samples
  let sample ← ofControl (selectPercentile samples percentile)
  print sample.toJson.pretty

/-- Replays telemetry, one step per window, and prints the steps. -/
def replayTelemetry (source : TelemetrySource) (window : Nat) (percentile : Int)
    (rounding : Option Rounding) : Attempt m Unit := do
  let samples ← source.samples
  let config ← environmentConfig
  let config := { config with rounding := rounding.getD config.rounding }
  let initial : SimulatorConfig := {}
  let controller ← ofControl
    (WindowedController.start config percentile ⟨initial.initialRatio, 0, initial.initialBandwidth⟩)
  let (windows, rest) := fullWindows window samples
  if rest ≠ [] then
    report s!"Ignoring {rest.length} samples after the last full window"
  let (steps, controller) := controller.replay windows
  let steps ← ofControl steps
  report s!"Replayed {steps.length} windows, final ratio {controller.state.ratio}"
  print (Json.array (steps.map WindowStep.toJson)).pretty

def printLatency (path : String) : Attempt m Unit := do
  let samples ← ofFault ((Telemetry.readLatency (← textFile path)).mapError .control)
  print (Telemetry.LatencySummary.of samples).toJson.pretty

end Interleave
