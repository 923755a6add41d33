import Interleave.Artifact
import Interleave.Command.Desk
import Interleave.Command.Options
import Interleave.Command.Perform
import Interleave.Command.Request
import Interleave.Command.Simulation
import Interleave.Command.Telemetry
import Interleave.Config
import Interleave.Config.Format
import Interleave.Config.Overrides
import Interleave.Controller
import Interleave.Csv
import Interleave.Curve
import Interleave.Curve.File
import Interleave.Curve.Sweep
import Interleave.Curve.Table
import Interleave.Digest.Sha256
import Interleave.Fault
import Interleave.Json.Numeral
import Interleave.Json.Printer
import Interleave.Json.Reader
import Interleave.Json.Record
import Interleave.Json.Syntax
import Interleave.Json.Value
import Interleave.Log.Emitter
import Interleave.Log.Entry
import Interleave.Log.Event
import Interleave.Log.Run
import Interleave.Log.Schema
import Interleave.Main
import Interleave.Number.Binary64
import Interleave.Number.Decimal
import Interleave.Number.Layout
import Interleave.Number.Literal
import Interleave.Number.Rounding
import Interleave.Number.Scaling
import Interleave.Number.Shortest
import Interleave.Proofs.Artifact.Atomic
import Interleave.Proofs.Command.Attempts
import Interleave.Proofs.Command.Delivery
import Interleave.Proofs.Command.Indexed
import Interleave.Proofs.Command.KeptLog
import Interleave.Proofs.Command.Truthful
import Interleave.Proofs.Config.Partial
import Interleave.Proofs.Controller.Account
import Interleave.Proofs.Controller.Band
import Interleave.Proofs.Controller.Departure
import Interleave.Proofs.Controller.Momentum
import Interleave.Proofs.Controller.Rest
import Interleave.Proofs.Controller.Steps
import Interleave.Proofs.Csv.Written
import Interleave.Proofs.Curve.Formats
import Interleave.Proofs.Curve.Interpolant
import Interleave.Proofs.Curve.Points
import Interleave.Proofs.Curve.Query
import Interleave.Proofs.Curve.Sweep
import Interleave.Proofs.Json.Canonical
import Interleave.Proofs.Json.Members
import Interleave.Proofs.Json.Nearest
import Interleave.Proofs.Json.Readable
import Interleave.Proofs.Json.Records
import Interleave.Proofs.Json.RoundTrip
import Interleave.Proofs.Json.SingleLine
import Interleave.Proofs.Json.Spaced
import Interleave.Proofs.Json.Tokens
import Interleave.Proofs.Log.Acceptance
import Interleave.Proofs.Log.Audit
import Interleave.Proofs.Log.Checks
import Interleave.Proofs.Log.Composition
import Interleave.Proofs.Log.Emission
import Interleave.Proofs.Log.Entries
import Interleave.Proofs.Log.Lines
import Interleave.Proofs.Log.Narrative
import Interleave.Proofs.Log.Operations
import Interleave.Proofs.Log.Refusal
import Interleave.Proofs.Log.Story
import Interleave.Proofs.Log.TraceIds
import Interleave.Proofs.Log.Validity
import Interleave.Proofs.Number.Bounds
import Interleave.Proofs.Number.Digits
import Interleave.Proofs.Number.Nearest
import Interleave.Proofs.Number.PlainText
import Interleave.Proofs.Number.Rounds
import Interleave.Proofs.Number.Shortest
import Interleave.Proofs.Number.Value
import Interleave.Proofs.Simulation.Climb
import Interleave.Proofs.Simulation.Convergence
import Interleave.Proofs.Simulation.Course
import Interleave.Proofs.Simulation.Flat
import Interleave.Proofs.Simulation.Hold
import Interleave.Proofs.Simulation.Links
import Interleave.Proofs.Simulation.Observed
import Interleave.Proofs.Simulation.Replay
import Interleave.Proofs.Simulation.Second
import Interleave.Proofs.Simulation.Shape
import Interleave.Proofs.Simulation.Slew
import Interleave.Proofs.Simulation.Standstill
import Interleave.Proofs.Simulation.Validated
import Interleave.Proofs.Store.Directories
import Interleave.Proofs.Telemetry.Blocks
import Interleave.Proofs.Telemetry.Latency
import Interleave.Proofs.Telemetry.NodeIds
import Interleave.Proofs.Telemetry.Nodes
import Interleave.Proofs.Telemetry.Patterns
import Interleave.Proofs.Telemetry.Records
import Interleave.Proofs.Text.Lines
import Interleave.Proofs.Text.Pattern
import Interleave.Proofs.Trace.Document
import Interleave.Proofs.Trace.Table
import Interleave.Proofs.Window.Dark
import Interleave.Proofs.Window.Lockstep
import Interleave.Proofs.Window.Observe
import Interleave.Proofs.Window.Rank
import Interleave.Proofs.Window.Replay
import Interleave.Proofs.Window.WarmUp
import Interleave.Sample
import Interleave.Simulation
import Interleave.Step
import Interleave.Store
import Interleave.Store.Path
import Interleave.Telemetry.Latency
import Interleave.Telemetry.Node
import Interleave.Telemetry.Records
import Interleave.Text.Blank
import Interleave.Text.Digit
import Interleave.Text.Lines
import Interleave.Text.Printable
import Interleave.Text.Quoted
import Interleave.Text.Search
import Interleave.Time.Utc
import Interleave.Trace
import Interleave.Trace.Export
import Interleave.Window
import Interleave.Window.Format
