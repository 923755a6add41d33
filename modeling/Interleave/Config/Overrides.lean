import Interleave.Config
import Interleave.Number.Literal
import Interleave.Text.Blank
/-!
# Overrides from the environment

Four variables replace fields of the controller configuration. A number that does not read, or does
not fit its field, leaves the field as it is; blanks around it are ignored. The rounding variable
always decides: any word but those for truncation means rounding to nearest.
-/
namespace Interleave

/-- The rounding that a word names, in either case and with blanks around it. -/
def Rounding.ofWord (word : String) : Rounding :=
  let word := String.ofList ((Text.trim word).toList.map Char.toLower)
  if word = "toward-zero" ∨ word = "toward_zero" ∨ word = "trunc" ∨ word = "truncate" then .towardZero
  else .nearest

namespace ControllerConfig

def minStepName : String := "DMI_MIN_STEP"

def maxStepName : String := "DMI_MAX_STEP"

def thresholdName : String := "DMI_LOW_BW_THRESHOLD"

def roundingName : String := "DMI_STEP_ROUNDING"

def environmentNames : List String := [minStepName, maxStepName, thresholdName, roundingName]

/-- The configuration with every field replaced that a variable gives. -/
def withOverrides (c : ControllerConfig) (lookup : String → Option String) : ControllerConfig :=
  let step? (name : String) := (lookup name).bind fun text =>
    Literal.intWithin? Step.minValue Step.maxValue (Text.trim text)
  { minStep := (step? minStepName).getD c.minStep
    maxStep := (step? maxStepName).getD c.maxStep
    lowBandwidthThreshold :=
      ((lookup thresholdName).bind fun text => Literal.float? (Text.trim text)).getD
        c.lowBandwidthThreshold
    rounding := ((lookup roundingName).map Rounding.ofWord).getD c.rounding }

end ControllerConfig

end Interleave
