import Interleave.Curve
import Interleave.Json.Printer
import Interleave.Json.Reader
import Interleave.Json.Record
import Interleave.Trace
/-!
# Sweeps

A sweep is a named series of bandwidths recorded at fixed ratios, kept in JSON. Two sweeps are built in:
the phases of a reference workload.
-/
namespace Interleave

/-- A named series of recorded bandwidths. -/
structure Sweep where
  version : String
  name : String
  description : Option String
  points : List (CurvePoint Float)
  deriving DecidableEq, Repr

namespace Sweep

/-- A point as JSON. -/
def pointJson (p : CurvePoint Float) : Json :=
  .object [("ratio", .nat p.ratio), ("bandwidth", .real p.bandwidth)]

def toJson (s : Sweep) : Json :=
  .object
    ([("version", .string s.version), ("name", .string s.name)] ++
      Json.member? "description" .string s.description ++
      [("points", .array (s.points.map pointJson))])

def pointOfSyntax? (s : Json.Syntax) : Option (CurvePoint Float) := do
  match ← s.slots? ["ratio", "bandwidth"] with
  | [ratio, bandwidth] =>
    pure ⟨← ratio.required (·.fit? (Json.natUpTo? 255)), ← bandwidth.required (·.fit? Json.float?)⟩
  | _ => none

def ofSyntax? (s : Json.Syntax) : Option Sweep := do
  let text (s : Json.Syntax) := s.fit? Json.string?
  match ← s.slots? ["version", "name", "description", "points"] with
  | [version, name, description, points] =>
    pure
      { version := ← version.required text
        name := ← name.required text
        description := ← description.omittable text
        points := ← points.required (·.list? pointOfSyntax?) }
  | _ => none

def ofText? (text : String) : Option Sweep := (Json.syntax? text).bind ofSyntax?

def text (s : Sweep) : String := s.toJson.pretty

def curve (s : Sweep) : Except ControlFault Curve := Curve.ofPoints s.points

/-- The first phase of the reference workload. -/
def referencePrimary : Sweep where
  version := "v1"
  name := "reference-primary"
  description := some "bandwidth-bound phase, peak near 70% local"
  points :=
    [⟨0, 209.822⟩, ⟨10, 236.041⟩, ⟨20, 270.705⟩, ⟨30, 333.98⟩, ⟨40, 421.738⟩, ⟨50, 538.822⟩,
      ⟨60, 647.731⟩, ⟨65, 654.157⟩, ⟨67, 666.453⟩, ⟨70, 669.857⟩, ⟨75, 669.678⟩, ⟨77, 665.0⟩,
      ⟨80, 640.375⟩, ⟨90, 575.409⟩, ⟨100, 529.604⟩]

/-- The second phase of the reference workload. -/
def referenceSecondary : Sweep where
  version := "v1"
  name := "reference-secondary"
  description := some "lighter phase, peak near 88% local"
  points :=
    [⟨0, 209.822⟩, ⟨55, 292.283⟩, ⟨65, 325.85⟩, ⟨75, 354.692⟩, ⟨77, 378.0⟩, ⟨80, 386.703⟩,
      ⟨83, 393.209⟩, ⟨85, 402.048⟩, ⟨88, 404.946⟩, ⟨90, 400.348⟩, ⟨92, 397.986⟩, ⟨95, 391.929⟩,
      ⟨100, 371.088⟩]

/-- A phase of the reference workload. -/
def reference : Phase → Sweep
  | .primary => referencePrimary
  | .secondary => referenceSecondary

end Sweep

end Interleave
