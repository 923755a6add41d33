import Interleave.Log.Event
import Interleave.Text.Blank
import Interleave.Text.Lines
/-!
# The schema of log lines

A line holds a JSON object with four required fields. Some fields take only words of a list, a trace
id has double colons, a ratio is at most 100, and a controller step has all that explains it. Only a
line without such violations has to fit the types of an entry.

Results:
* `validateLines_append`: the violations of a log are those of its parts.
-/
namespace Interleave

/-- What is wrong with a line. -/
inductive SchemaFault where
  | notJson
  | notAnObject
  | missing (field : String)
  | unknownWord (field word : String)
  /-- A controller step lacks a field that explains it. -/
  | unexplained (field : String)
  | ratioTooLarge (ratio : Int)
  | unstructuredTraceId (id : String)
  | notAnEntry
  deriving DecidableEq, Repr

namespace SchemaFault

def field : SchemaFault → String
  | notJson => "<json>"
  | notAnObject => "<root>"
  | missing f | unknownWord f _ | unexplained f => f
  | ratioTooLarge _ => "ratio"
  | unstructuredTraceId _ => "trace_id"
  | notAnEntry => "<deserialization>"

def message : SchemaFault → String
  | notJson => "invalid JSON"
  | notAnObject => "expected JSON object"
  | missing _ => "required field missing"
  | unknownWord f w => s!"invalid {f}: '" ++ w ++ "'"
  | unexplained f => s!"{stepEvent} events must include {f}"
  | ratioTooLarge r => s!"ratio {r} outside [0, 100]"
  | unstructuredTraceId id =>
    "trace_id should follow <run_id>::<component>::<seq> format, got: '" ++ id ++ "'"
  | notAnEntry => "failed to deserialize"

end SchemaFault

/-- A fault and the line that has it. -/
structure Violation where
  line : Nat
  fault : SchemaFault
  deriving DecidableEq, Repr

def Violation.text (v : Violation) : String :=
  s!"line {v.line}: field '" ++ v.fault.field ++ "': " ++ v.fault.message

namespace Schema

/-- The fields that every entry has. -/
def requiredFields : List String := ["timestamp", "trace_id", "level", "event"]

/-- The fields that take only words of a list. -/
def vocabularies : List (String × List String) :=
  [("level", Level.all.map (·.name)), ("outcome", Outcome.all.map (·.name)),
    ("phase", Phase.all.map (·.name)), ("rule", Rule.all.map (·.name))]

/-- The fields that explain a controller step. -/
def explainingFields : List String := ["iteration", "phase", "ratio", "step", "bandwidth", "rule"]

/-- The text has double colons somewhere. -/
def isStructured : List Char → Bool
  | ':' :: ':' :: _ => true
  | _ :: cs => isStructured cs
  | [] => false

/-- The text of a field that holds one. -/
def text? (members : List (String × Json)) (field : String) : Option String :=
  (members.lookup field).bind Json.string?

/-- The required fields that are not there. -/
def missingFaults (members : List (String × Json)) : List SchemaFault :=
  (requiredFields.filter fun f => (members.lookup f).isNone).map .missing

/-- The words that are in no list. -/
def wordFaults (members : List (String × Json)) : List SchemaFault :=
  vocabularies.filterMap fun (field, words) =>
    ((text? members field).filter (!words.contains ·)).map (.unknownWord field)

/-- The field is there and not `null`. -/
def isGiven (members : List (String × Json)) (field : String) : Bool :=
  match members.lookup field with
  | none | some .null => false
  | some _ => true

/-- The fields that a controller step lacks. -/
def stepFaults (members : List (String × Json)) : List SchemaFault :=
  if text? members "event" = some stepEvent then
    (explainingFields.filter (!isGiven members ·)).map .unexplained
  else []

/-- A ratio beyond the range. -/
def ratioFaults (members : List (String × Json)) : List SchemaFault :=
  match members.lookup "ratio" with
  | some (.number (.integer ratio)) => if 100 < ratio then [.ratioTooLarge ratio] else []
  | _ => []

/-- A trace id without double colons. -/
def traceIdFaults (members : List (String × Json)) : List SchemaFault :=
  (((text? members "trace_id").filter (!isStructured ·.toList)).map .unstructuredTraceId).toList

/-- The faults of an object in canonical form. -/
def faults (members : List (String × Json)) : List SchemaFault :=
  missingFaults members ++ wordFaults members ++ stepFaults members ++ ratioFaults members ++
    traceIdFaults members

/-- The entry that an object in canonical form holds, or all its faults. -/
def checkMembers (members : List (String × Json)) : Except (List SchemaFault) LogEntry :=
  match faults members with
  | f :: fs => .error (f :: fs)
  | [] =>
    match LogEntry.ofMembers? members with
    | none => .error [.notAnEntry]
    | some entry => .ok entry

/-- The entry of a text, or all its faults. The last one of repeated fields counts. -/
def check (text : String) : Except (List SchemaFault) LogEntry :=
  match (Json.read? text).map Json.canonical with
  | none => .error [.notJson]
  | some (.object members) => checkMembers members
  | some _ => .error [.notAnObject]

end Schema

/-- The entry of a line, or its violations. -/
def validateLine (line : Text.NumberedLine) : Except (List Violation) LogEntry :=
  (Schema.check line.text).mapError (·.map (⟨line.number, ·⟩))

/-- What a check of a log finds: the lines that are not blank, and all violations. -/
structure LogReport where
  lines : Nat := 0
  violations : List Violation := []
  deriving DecidableEq, Repr

/-- Two reports, one after the other. -/
def LogReport.append (a b : LogReport) : LogReport :=
  ⟨a.lines + b.lines, a.violations ++ b.violations⟩

/-- The report on one line. White space around the entry does not matter. -/
def reportLine (line : Text.NumberedLine) : LogReport :=
  if Text.isBlankText line.text then {}
  else
    match validateLine ⟨line.number, Text.trim line.text⟩ with
    | .ok _ => ⟨1, []⟩
    | .error violations => ⟨1, violations⟩

def validateLines : List Text.NumberedLine → LogReport
  | [] => {}
  | l :: ls => (reportLine l).append (validateLines ls)

def validateLog (text : String) : LogReport := validateLines (Text.numberedLines text)

theorem validateLines_append (a b : List Text.NumberedLine) :
    validateLines (a ++ b) = (validateLines a).append (validateLines b) := by
  induction a with
  | nil => simp [validateLines, LogReport.append]
  | cons l a ih => simp [validateLines, LogReport.append, ih, Nat.add_assoc]

end Interleave
