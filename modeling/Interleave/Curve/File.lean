import Interleave.Curve.Sweep
import Interleave.Curve.Table
import Interleave.Store
/-!
# Curve files

A file whose extension is `json`, in either case, holds a sweep; any other holds a table.
-/
namespace Interleave

/-- The text that bytes encode. -/
def decodeText (content : ByteArray) : Except Fault String :=
  match String.fromUTF8? content with
  | some text => .ok text
  | none => .error (.io .invalidData)

/-- The file at a path holds a sweep. -/
def isSweepFile (path : String) : Bool :=
  match Path.extension? path with
  | some extension => String.ofList (extension.toList.map Char.toLower) = "json"
  | none => false

/-- The curve of a file that was read, with the bandwidth column that a table needs. -/
def Curve.ofFile (path column : String) (content : Except IoFault ByteArray) : Except Fault Curve :=
  if isSweepFile path then
    match content with
    | .error fault => .error (.io fault)
    | .ok content => do
      match Sweep.ofText? (← decodeText content) with
      | none => .error .json
      | some sweep => sweep.curve.mapError .control
  else
    match content with
    | .error .isADirectory => .error (.table (.unreadable .isADirectory))
    | .error fault => .error (.io fault)
    | .ok content => CurveTable.read column content

end Interleave
