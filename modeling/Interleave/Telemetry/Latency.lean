import Interleave.Json.Value
import Interleave.Telemetry.Records
/-!
# Latency stream

Every line that is not blank says `local <digits> remote <digits>` exactly once, perhaps with other
text around it. The first line that does not is the fault of the whole stream.

Results:
* `readLatencyLines_append`: a stream reads iff both its parts do, and gives their samples in order.
-/
namespace Interleave.Telemetry

open Text (NumberedLine)

/-- Access latencies of one period, in cycles. -/
structure LatencySample where
  near : Nat
  far : Nat
  deriving DecidableEq, Repr

/-- `local <digits> remote <digits>` at the head of a text: the digits and the text after. -/
def latency? (cs : List Char) : Option ((List Char × List Char) × List Char) := do
  let (near, rest) ← Text.digitRun? (← Text.afterWord? ['l', 'o', 'c', 'a', 'l', ' '] cs)
  let (far, rest) ←
    Text.digitRun? (← Text.afterWord? [' ', 'r', 'e', 'm', 'o', 't', 'e', ' '] rest)
  pure ((near, far), rest)

def lineLatency? (line : NumberedLine) : Option LatencySample :=
  match Text.occurrences latency? line.text.toList with
  | [(near, far)] => do pure ⟨← count? near, ← count? far⟩
  | _ => none

/-- The samples of the lines that are not blank. -/
def readLatencyLines : List NumberedLine → Except ControlFault (List LatencySample)
  | [] => .ok []
  | l :: ls =>
    if isBlankLine l then readLatencyLines ls
    else
      match lineLatency? l with
      | none => .error (malformed l)
      | some s => (readLatencyLines ls).map (s :: ·)

/-- Reads a stream. -/
def readLatency (text : String) : Except ControlFault (List LatencySample) :=
  readLatencyLines (Text.numberedLines text)

/-- A stream at a glance. -/
structure LatencySummary where
  samples : Nat
  meanNear : Float
  meanFar : Float
  maxNear : Nat
  maxFar : Nat
  deriving DecidableEq, Repr

/-- The mean of numbers, or 0 of none. -/
def mean (ns : List Nat) : Float :=
  if ns = [] then 0.0 else Float.ofNat (ns.foldl (· + ·) 0) / Float.ofNat ns.length

/-- The largest of some numbers, or 0 of none. -/
def largest (ns : List Nat) : Nat := ns.foldl max 0

def LatencySummary.of (samples : List LatencySample) : LatencySummary :=
  let near := samples.map (·.near)
  let far := samples.map (·.far)
  ⟨samples.length, mean near, mean far, largest near, largest far⟩

def LatencySummary.toJson (s : LatencySummary) : Json :=
  .object
    [("samples", .nat s.samples), ("mean_local", .real s.meanNear), ("mean_remote", .real s.meanFar),
      ("max_local", .nat s.maxNear), ("max_remote", .nat s.maxFar)]

theorem readLatencyLines_append (a b : List NumberedLine) :
    readLatencyLines (a ++ b) =
      (readLatencyLines a).bind fun x => (readLatencyLines b).map (x ++ ·) := by
  induction a with
  | nil => cases h : readLatencyLines b <;> simp [readLatencyLines, h, Except.bind, Except.map]
  | cons l a ih =>
    simp only [List.cons_append, readLatencyLines]
    split
    · exact ih
    · split
      · rfl
      · rw [ih]
        cases readLatencyLines a <;> cases readLatencyLines b <;> simp [Except.bind, Except.map]

end Interleave.Telemetry
