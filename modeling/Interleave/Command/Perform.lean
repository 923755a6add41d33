import Interleave.Command.Telemetry
import Interleave.Log.Schema
/-!
# Performing requests

A command line that makes no sense ends with status 2 and one that fails with status 1; the failure is
the last line told to the user.
-/
namespace Interleave

variable {m : Type → Type} [Monad m] [Desk m]

open Desk Attempt

/-- Prints the bandwidths of a curve at some ratios, or its peak if there are none. -/
def printCurve (source : CurveSource) (column : String) (ratios : List Nat) : Attempt m Unit := do
  let curve ← match source with
    | .builtIn phase => builtInCurve phase
    | .file path => curveFile path column
  if ratios = [] then
    let peak := curve.peak
    print s!"peak,{peak.ratio},{plainText peak.bandwidth}"
  for ratio in ratios do
    let bandwidth ← ofControl (curve.get ratio)
    print s!"{ratio},{plainText bandwidth}"

/-- Reports the violations of a log. -/
def reportViolations (path : String) : Attempt m Unit := do
  let found := validateLog (← textFile path)
  for violation in found.violations do
    report violation.text
  let count := found.violations.length
  report s!"Validated {path}: lines={found.lines}, errors={count}"
  if count ≠ 0 then
    throw (.violations count)

/-- Does what a request asks for. -/
def Request.perform : Request → Attempt m Unit
  | simulate simulation => simulation.perform
  | percentile source p => printPercentile source p
  | replay source window p rounding => replayTelemetry source window p rounding
  | latency path => printLatency path
  | queryCurve source column ratios => printCurve source column ratios
  | validateLog path => reportViolations path

/-- What the user is told about a command line that makes no sense. -/
def usage : String :=
  "usage: simulate | percentile | replay | latency | curve-query | validate-log, with --options"

/-- Ends a command with the status of its result. -/
def conclude : Except Failure Unit → m UInt32
  | .ok _ => pure 0
  | .error failure => do
    report s!"Error: {failure.shape}"
    pure 1

/-- Performs a command line and gives the status that it ends with. -/
def performWords (words : List String) : m UInt32 := do
  match Request.ofWords? words with
  | none =>
    report usage
    pure 2
  | some request => conclude (← request.perform.run)

end Interleave
