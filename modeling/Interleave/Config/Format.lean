import Interleave.Config
import Interleave.Json.Printer
import Interleave.Json.Reader
import Interleave.Json.Record
import Interleave.Number.Literal
/-!
# Configurations in JSON

A run configuration is a record of two sections, each a record of its own. Every field and both
sections may be left out and then keep their defaults; members of other names are not read.
-/
namespace Interleave

def Rounding.name : Rounding → String
  | nearest => "nearest"
  | towardZero => "toward-zero"

def Rounding.ofName? (text : String) : Option Rounding :=
  [nearest, towardZero].find? (·.name = text)

namespace ControllerConfig

def toJson (c : ControllerConfig) : Json :=
  .object
    [("min_step", .int c.minStep), ("max_step", .int c.maxStep),
      ("low_bandwidth_threshold", .real c.lowBandwidthThreshold),
      ("rounding", .string c.rounding.name)]

/-- Reads a section, with defaults for what it leaves out. -/
def ofSyntax? (s : Json.Syntax) : Option ControllerConfig := do
  let step (s : Json.Syntax) := s.fit? (Json.intWithin? Step.minValue Step.maxValue)
  match ← s.slots? ["min_step", "max_step", "low_bandwidth_threshold", "rounding"] with
  | [minStep, maxStep, threshold, rounding] =>
    pure
      { minStep := ← minStep.withDefault step ({} : ControllerConfig).minStep
        maxStep := ← maxStep.withDefault step ({} : ControllerConfig).maxStep
        lowBandwidthThreshold :=
          ← threshold.withDefault (·.fit? Json.float?) ({} : ControllerConfig).lowBandwidthThreshold
        rounding := ← rounding.withDefault (·.fit? (Json.choice? Rounding.ofName?))
          ({} : ControllerConfig).rounding }
  | _ => none

end ControllerConfig

namespace SimulatorConfig

def toJson (c : SimulatorConfig) : Json :=
  .object
    [("initial_ratio", .nat c.initialRatio), ("initial_bandwidth", .real c.initialBandwidth),
      ("hold_iterations", .nat c.holdIterations), ("max_iterations", .nat c.maxIterations)]

/-- Reads a section, with defaults for what it leaves out. -/
def ofSyntax? (s : Json.Syntax) : Option SimulatorConfig := do
  let count (s : Json.Syntax) := s.fit? (Json.natUpTo? maxCount)
  match ← s.slots? ["initial_ratio", "initial_bandwidth", "hold_iterations", "max_iterations"] with
  | [ratio, bandwidth, hold, most] =>
    pure
      { initialRatio :=
          ← ratio.withDefault (·.fit? (Json.natUpTo? 255)) ({} : SimulatorConfig).initialRatio
        initialBandwidth :=
          ← bandwidth.withDefault (·.fit? Json.float?) ({} : SimulatorConfig).initialBandwidth
        holdIterations := ← hold.withDefault count ({} : SimulatorConfig).holdIterations
        maxIterations := ← most.withDefault count ({} : SimulatorConfig).maxIterations }
  | _ => none

end SimulatorConfig

namespace RunConfig

def toJson (c : RunConfig) : Json :=
  .object [("controller", c.controller.toJson), ("simulator", c.simulator.toJson)]

/-- Reads a configuration, with defaults for what it leaves out. -/
def ofSyntax? (s : Json.Syntax) : Option RunConfig := do
  match ← s.slots? ["controller", "simulator"] with
  | [controller, simulator] =>
    pure
      { controller := ← controller.withDefault ControllerConfig.ofSyntax? {}
        simulator := ← simulator.withDefault SimulatorConfig.ofSyntax? {} }
  | _ => none

def ofText? (text : String) : Option RunConfig := (Json.syntax? text).bind ofSyntax?

end RunConfig

end Interleave
