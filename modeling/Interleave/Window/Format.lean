import Interleave.Json.Value
import Interleave.Window
/-!
# Samples and windows in JSON

The records that the command line prints, with their fields in the order of their declaration. A number
that is not finite is written as `null`.
-/
namespace Interleave

def Sample.toJson (s : Sample) : Json :=
  .object
    [("local", .real s.localPart.toFloat), ("remote", .real s.remotePart.toFloat),
      ("total", .real s.total.toFloat)]

def Reading.toJson (r : Reading) : Json :=
  .object
    [("sample", r.sample.toJson), ("discarded", .nat r.discarded), ("considered", .nat r.considered)]

def ControlState.toJson (s : ControlState) : Json :=
  .object [("ratio", .nat s.ratio), ("step", .int s.step), ("bandwidth", .real s.bandwidth)]

def Decision.toJson (d : Decision) : Json :=
  .object
    [("rule", .string d.rule.name), ("proposed_step", .int d.proposed), ("dead_zone", .bool d.deadZone),
      ("saturated", .bool d.saturated), ("ratio_clamped", .bool d.ratioClamped)]

def WindowStep.toJson (s : WindowStep) : Json :=
  .object
    [("reading", s.reading.toJson), ("state", s.state.toJson), ("decision", s.decision.toJson)]

end Interleave
