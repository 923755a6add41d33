import Interleave.Number.Layout
import Interleave.Text.Quoted
/-!
# What can go wrong

Every fault is a cause with its data. `message` is the sentence a reader sees, and `shape` the
constructor with its fields, which the command line prints when a command fails.
-/
namespace Interleave

/-- Why a configuration is refused. -/
inductive ConfigFault where
  | minStepNegative (minStep : Int)
  | maxStepNotPositive (maxStep : Int)
  | minStepExceedsMaxStep (minStep maxStep : Int)
  | thresholdOutOfRange (threshold : Float)
  | initialRatioTooLarge (ratio : Nat)
  | initialBandwidthUnusable (bandwidth : Float)
  | noIterations
  deriving DecidableEq, Repr

def ConfigFault.message : ConfigFault → String
  | minStepNegative n => s!"min_step {n} is negative"
  | maxStepNotPositive n => s!"max_step {n} must be positive"
  | minStepExceedsMaxStep a b => s!"min_step {a} exceeds max_step {b}"
  | thresholdOutOfRange x =>
    s!"low_bandwidth_threshold {plainText x} must be finite and non-negative"
  | initialRatioTooLarge r => s!"initial_ratio {r} exceeds 100"
  | initialBandwidthUnusable x => s!"initial_bandwidth {plainText x} must be finite and non-zero"
  | noIterations => "max_iterations must be positive"

/-- The place where a relative change is taken. -/
inductive ChangeOf where
  | coldStart
  | damping
  deriving DecidableEq, Repr

def ChangeOf.name : ChangeOf → String
  | coldStart => "cold start"
  | damping => "damping"

/-- A fault of the controller, its curves or its telemetry. -/
inductive ControlFault where
  | invalidPercentile (percentile : Int)
  | emptySampleSet
  | ratioOutOfRange (ratio min max : Nat)
  | divisionByZero (place : ChangeOf)
  | malformedRecord (line : Nat) (content : String)
  | noConvergence (iterations : Nat)
  | emptyCurve
  | duplicateRatio (ratio : Nat)
  | invalidBandwidth (ratio : Nat) (value : Float)
  | invalidConfig (reason : ConfigFault)
  deriving DecidableEq, Repr

namespace ControlFault

def message : ControlFault → String
  | invalidPercentile p => s!"invalid percentile {p}: must be within [0, 100]"
  | emptySampleSet => "cannot select a percentile from an empty sample set"
  | ratioOutOfRange r lo hi => s!"ratio {r} out of range: curve covers [{lo}, {hi}]"
  | divisionByZero place => s!"division by zero in {place.name}: previous bandwidth is 0"
  | malformedRecord line content =>
    s!"malformed telemetry record at line {line}: {Text.quote content}"
  | noConvergence n => s!"no convergence after {n} iterations"
  | emptyCurve => "bandwidth curve has no points"
  | duplicateRatio r => s!"duplicate ratio {r} in bandwidth curve"
  | invalidBandwidth r x => s!"invalid bandwidth {plainText x} at ratio {r}"
  | invalidConfig reason => s!"invalid controller config: {reason.message}"

/-- The fault as a constructor with its fields. -/
def shape : ControlFault → String
  | invalidPercentile p => s!"InvalidPercentile({p})"
  | emptySampleSet => "EmptySampleSet"
  | ratioOutOfRange r lo hi =>
    "RatioOutOfRange \x7b " ++ s!"ratio: {r}, min: {lo}, max: {hi}" ++ " \x7d"
  | divisionByZero place =>
    "DivisionByZero \x7b " ++ s!"context: {Text.quote place.name}" ++ " \x7d"
  | malformedRecord line content =>
    "MalformedTelemetryRecord \x7b " ++ s!"line: {line}, content: {Text.quote content}" ++ " \x7d"
  | noConvergence n => "ConvergenceTimeout \x7b " ++ s!"iterations: {n}" ++ " \x7d"
  | emptyCurve => "EmptyCurve"
  | duplicateRatio r => s!"DuplicateRatio({r})"
  | invalidBandwidth r x =>
    "InvalidBandwidth \x7b " ++ s!"ratio: {r}, value: {plainText x}" ++ " \x7d"
  | invalidConfig reason => s!"InvalidConfig({Text.quote reason.message})"

end ControlFault

/-- A fault of a file or a writer. -/
inductive IoFault where
  | notFound
  | notADirectory
  | isADirectory
  /-- A name or a path has more bytes than a file system takes. -/
  | nameTooLong
  /-- A path holds a character that no path can hold. -/
  | malformedPath
  /-- The bytes are not UTF-8. -/
  | invalidData
  /-- The writer takes no more. -/
  | refused
  deriving DecidableEq, Repr

def IoFault.message : IoFault → String
  | notFound => "no such file or directory"
  | notADirectory => "not a directory"
  | isADirectory => "is a directory"
  | nameTooLong => "file name too long"
  | malformedPath => "file name contains a null character"
  | invalidData => "stream did not contain valid UTF-8"
  | refused => "the writer refused the line"

/-- A fault of a table of comma-separated values. -/
inductive TableFault where
  /-- A field is not UTF-8. -/
  | notUtf8
  /-- A row has not as many fields as the header. -/
  | unequalLengths (expected actual : Nat)
  /-- The rows cannot be read at all. -/
  | unreadable (fault : IoFault)
  deriving DecidableEq, Repr

def TableFault.message : TableFault → String
  | notUtf8 => "a field is not valid UTF-8"
  | unequalLengths e a => s!"found record with {a} fields, but the header has {e} fields"
  | unreadable fault => fault.message

/-- Any fault of the tools around the controller. -/
inductive Fault where
  | control (fault : ControlFault)
  | io (fault : IoFault)
  | table (fault : TableFault)
  | json
  | missingColumn (name : String)
  | invalidField (row : Nat) (column value : String)
  | invalidNode (node line : Nat)
  | mismatchedSeries (nearCount farCount : Nat)
  deriving DecidableEq, Repr

namespace Fault

def message : Fault → String
  | control fault => fault.message
  | io fault => s!"io: {fault.message}"
  | table fault => s!"csv: {fault.message}"
  | json => "json: not the expected value"
  | missingColumn name => s!"missing column {Text.quote name} in curve file"
  | invalidField row column value => s!"row {row}: invalid {column} value {Text.quote value}"
  | invalidNode node line => s!"invalid node {node} at line {line}"
  | mismatchedSeries near far =>
    s!"different local ({near}) and remote ({far}) bandwidth measurement counts"

/-- The fault as a constructor with its fields. -/
def shape : Fault → String
  | control fault => s!"Dmi({fault.shape})"
  | io _ => "Io"
  | table _ => "Csv"
  | json => "Json"
  | missingColumn name => s!"MissingColumn({Text.quote name})"
  | invalidField row column value =>
    "InvalidField \x7b " ++
      s!"row: {row}, column: {Text.quote column}, value: {Text.quote value}" ++ " \x7d"
  | invalidNode node line => "InvalidNode \x7b " ++ s!"node: {node}, line: {line}" ++ " \x7d"
  | mismatchedSeries near far =>
    "MismatchedSeries \x7b " ++ s!"local: {near}, remote: {far}" ++ " \x7d"

end Fault

end Interleave
