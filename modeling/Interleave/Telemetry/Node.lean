import Interleave.Telemetry.Records
/-!
# Node stream

Of a monitor's output only the readings `Node <digit>: … Total <digits> MB/s` count; all other lines
are noise. Node 0 is local memory and node 1 remote, and any other node is a fault. On one line the
first node that has a total after it is taken, with the last total of the line.
-/
namespace Interleave.Telemetry

open Text (NumberedLine)

/-- The bandwidths of both kinds of memory, each in the order of arrival. -/
structure NodeSeries where
  near : List Float := []
  far : List Float := []
  deriving DecidableEq, Repr

/-- A reading: the digit of the node and the digits of the bandwidth. -/
structure NodeReading where
  node : Char
  digits : List Char
  deriving DecidableEq, Repr

/-- ` Total <digits> MB/s` at the head of a text: the digits. -/
def nodeTotal? (cs : List Char) : Option (List Char) := do
  let (digits, _) ← throughput? (← Text.afterWord? [' '] cs)
  pure digits

/-- A reading at the head of a text. -/
def nodeReading? (cs : List Char) : Option NodeReading :=
  match Text.afterWord? ['N', 'o', 'd', 'e', ' '] cs with
  | some (node :: ':' :: ' ' :: cs) =>
    if Text.isDigit node then (Text.last? nodeTotal? cs).map (⟨node, ·⟩) else none
  | _ => none

def lineReading? (line : NumberedLine) : Option NodeReading :=
  Text.first? nodeReading? line.text.toList

/-- The node and the bandwidth of a reading. Digits of other scripts form no number. -/
def readReading (line : NumberedLine) (r : NodeReading) : Except ControlFault (Nat × Float) :=
  match Literal.digits? [r.node], Literal.float? (String.ofList r.digits) with
  | some node, some x => .ok (node, x)
  | _, _ => .error (malformed line)

/-- The readings of lines, up to the first fault. -/
def readNodeLines : List NumberedLine → Except Fault NodeSeries
  | [] => .ok {}
  | l :: ls =>
    match lineReading? l with
    | none => readNodeLines ls
    | some r =>
      match readReading l r with
      | .error fault => .error (.control fault)
      | .ok (0, x) => (readNodeLines ls).map fun s => { s with near := x :: s.near }
      | .ok (1, x) => (readNodeLines ls).map fun s => { s with far := x :: s.far }
      | .ok (node, _) => .error (.invalidNode node l.number)

/-- Reads a stream. If there are remote readings, there have to be as many as local ones. -/
def readNodes (text : String) : Except Fault NodeSeries := do
  let s ← readNodeLines (Text.numberedLines text)
  if s.near.length ≠ s.far.length ∧ s.far ≠ [] then
    .error (.mismatchedSeries s.near.length s.far.length)
  else .ok s

/-- The sample of a local and a remote bandwidth. -/
def pairSample (near far : Float) : Sample := ⟨.ofFloat near, .ofFloat far, .ofFloat (near + far)⟩

/-- Pairs local and remote bandwidths; a missing remote one is 0. -/
def pairSamples : (near far : List Float) → List Sample
  | [], _ => []
  | x :: xs, [] => pairSample x 0.0 :: pairSamples xs []
  | x :: xs, y :: ys => pairSample x y :: pairSamples xs ys

/-- One sample per local reading. -/
def NodeSeries.samples (s : NodeSeries) : List Sample := pairSamples s.near s.far

end Interleave.Telemetry
