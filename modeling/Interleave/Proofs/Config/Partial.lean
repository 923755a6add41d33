import Interleave.Config.Format
import Interleave.Proofs.Controller.Steps
import Interleave.Proofs.Json.Members

/-!
# Partial configurations

A run configuration may leave out any of its fields and either of its sections. `reset` says what is then
read: a field that is not there is reset to its default, a section that is not there is reset as a whole,
and nothing else is. The ten names are different from each other, so a list of names is any choice of
fields and sections.

Members of other names change nothing, wherever they stand and whatever they hold. Which names are known
depends on the place: a section knows its own four fields only, and the whole knows its two sections only
(`Padded`).

Results:
* `ControllerConfig.ofSyntax?_padded`, `SimulatorConfig.ofSyntax?_padded`: one section.
* `RunConfig.defaults_field_by_field`: the whole, from its text.
-/
namespace Interleave

open Json

/-! ## The section of the control law -/

namespace ControllerConfig

def fieldNames : List String := ["min_step", "max_step", "low_bandwidth_threshold", "rounding"]

/-- A section that JSON keeps: its steps fit their words, and the threshold is finite and read back. -/
structure Recordable (c : ControllerConfig) : Prop where
  minStep : Step.InWord c.minStep
  maxStep : Step.InWord c.maxStep
  isFinite : c.lowBandwidthThreshold.isFinite = true
  readsBack : (Number.real c.lowBandwidthThreshold).ReadsBack

/-- The fields of the names `deleted` take their defaults. -/
def reset (deleted : List String) (c : ControllerConfig) : ControllerConfig where
  minStep := if "min_step" ∈ deleted then ({} : ControllerConfig).minStep else c.minStep
  maxStep := if "max_step" ∈ deleted then ({} : ControllerConfig).maxStep else c.maxStep
  lowBandwidthThreshold :=
    if "low_bandwidth_threshold" ∈ deleted then ({} : ControllerConfig).lowBandwidthThreshold
    else c.lowBandwidthThreshold
  rounding := if "rounding" ∈ deleted then ({} : ControllerConfig).rounding else c.rounding

/-- A section with further members. -/
def Padded : Json → Json → Prop := Json.Padded fieldNames fun _ => Eq

theorem reset_nil (c : ControllerConfig) : c.reset [] = c := by simp [reset]

theorem fit?_rounding (r : Rounding) :
    (Json.string r.name).spelled.fit? (choice? Rounding.ofName?) = some r := by
  rw [fit?_string]
  cases r <;> rfl

variable {c : ControllerConfig} {deleted : List String} {j : Json}

/-- The section is read, with defaults for what was left out. -/
theorem ofSyntax?_padded (h : c.Recordable) (hj : Padded (c.toJson.without deleted) j) :
    ofSyntax? j.spelled = some (c.reset deleted) := by
  obtain ⟨hfields⟩ := hj
  have hstep {n : Int} (hn : Step.InWord n) :
      (Json.int n).spelled.fit? (intWithin? Step.minValue Step.maxValue) = some n :=
    fit?_int hn (by decide) (by decide)
  have hreal : ((Json.real c.lowBandwidthThreshold).without deleted).spelled.fit? float? =
      some c.lowBandwidthThreshold := by
    rw [without_real, fit?_real fun _ => h.readsBack, if_pos h.isFinite]
  obtain ⟨minStep, hminStep, readMinStep⟩ := hfields.withDefault_same "min_step" _
    ({} : ControllerConfig).minStep (by decide) rfl (hstep h.minStep)
  obtain ⟨maxStep, hmaxStep, readMaxStep⟩ := hfields.withDefault_same "max_step" _
    ({} : ControllerConfig).maxStep (by decide) rfl (hstep h.maxStep)
  obtain ⟨threshold, hthreshold, readThreshold⟩ := hfields.withDefault_same "low_bandwidth_threshold" _
    ({} : ControllerConfig).lowBandwidthThreshold (by decide) rfl hreal
  obtain ⟨rounding, hrounding, readRounding⟩ := hfields.withDefault_same "rounding" _
    ({} : ControllerConfig).rounding (by decide) rfl (fit?_rounding c.rounding)
  unfold ofSyntax?
  rw [slots?_spelled]
  simp only [List.mapM_cons, List.mapM_nil, hminStep, hmaxStep, hthreshold, hrounding,
    Option.bind_eq_bind, Option.pure_def, Option.bind_some, readMinStep, readMaxStep, readThreshold,
    readRounding]
  rfl

end ControllerConfig

/-! ## The section of the closed loop -/

namespace SimulatorConfig

def fieldNames : List String :=
  ["initial_ratio", "initial_bandwidth", "hold_iterations", "max_iterations"]

/-- A section that JSON keeps: its numbers fit their words, and the bandwidth is finite and read back. -/
structure Recordable (c : SimulatorConfig) : Prop where
  initialRatio : c.initialRatio ≤ 255
  isFinite : c.initialBandwidth.isFinite = true
  readsBack : (Number.real c.initialBandwidth).ReadsBack
  holdIterations : c.holdIterations ≤ maxCount
  maxIterations : c.maxIterations ≤ maxCount

/-- The fields of the names `deleted` take their defaults. -/
def reset (deleted : List String) (c : SimulatorConfig) : SimulatorConfig where
  initialRatio :=
    if "initial_ratio" ∈ deleted then ({} : SimulatorConfig).initialRatio else c.initialRatio
  initialBandwidth :=
    if "initial_bandwidth" ∈ deleted then ({} : SimulatorConfig).initialBandwidth
    else c.initialBandwidth
  holdIterations :=
    if "hold_iterations" ∈ deleted then ({} : SimulatorConfig).holdIterations else c.holdIterations
  maxIterations :=
    if "max_iterations" ∈ deleted then ({} : SimulatorConfig).maxIterations else c.maxIterations

/-- A section with further members. -/
def Padded : Json → Json → Prop := Json.Padded fieldNames fun _ => Eq

theorem reset_nil (c : SimulatorConfig) : c.reset [] = c := by simp [reset]

variable {c : SimulatorConfig} {deleted : List String} {j : Json}

/-- The section is read, with defaults for what was left out. -/
theorem ofSyntax?_padded (h : c.Recordable) (hj : Padded (c.toJson.without deleted) j) :
    ofSyntax? j.spelled = some (c.reset deleted) := by
  obtain ⟨hfields⟩ := hj
  have hreal : ((Json.real c.initialBandwidth).without deleted).spelled.fit? float? =
      some c.initialBandwidth := by
    rw [without_real, fit?_real fun _ => h.readsBack, if_pos h.isFinite]
  obtain ⟨ratio, hratio, readRatio⟩ := hfields.withDefault_same "initial_ratio" _
    ({} : SimulatorConfig).initialRatio (by decide) rfl (fit?_nat h.initialRatio (by decide))
  obtain ⟨bandwidth, hbandwidth, readBandwidth⟩ := hfields.withDefault_same "initial_bandwidth" _
    ({} : SimulatorConfig).initialBandwidth (by decide) rfl hreal
  obtain ⟨hold, hhold, readHold⟩ := hfields.withDefault_same "hold_iterations" _
    ({} : SimulatorConfig).holdIterations (by decide) rfl (fit?_nat h.holdIterations le_rfl)
  obtain ⟨most, hmost, readMost⟩ := hfields.withDefault_same "max_iterations" _
    ({} : SimulatorConfig).maxIterations (by decide) rfl (fit?_nat h.maxIterations le_rfl)
  unfold ofSyntax?
  rw [slots?_spelled]
  simp only [List.mapM_cons, List.mapM_nil, hratio, hbandwidth, hhold, hmost, Option.bind_eq_bind,
    Option.pure_def, Option.bind_some, readRatio, readBandwidth, readHold, readMost]
  rfl

end SimulatorConfig

/-! ## The whole -/

namespace RunConfig

def sectionNames : List String := ["controller", "simulator"]

/-- A configuration that JSON keeps. -/
structure Recordable (c : RunConfig) : Prop where
  controller : c.controller.Recordable
  simulator : c.simulator.Recordable

/-- The sections of the names `deleted` take their defaults, and in the other sections the fields. -/
def reset (deleted : List String) (c : RunConfig) : RunConfig where
  controller := if "controller" ∈ deleted then {} else c.controller.reset deleted
  simulator := if "simulator" ∈ deleted then {} else c.simulator.reset deleted

/-- A configuration with further members, next to its sections and in them. -/
def Padded : Json → Json → Prop :=
  Json.Padded sectionNames fun name =>
    if name = "controller" then ControllerConfig.Padded else SimulatorConfig.Padded

variable {c : RunConfig} {deleted : List String} {j : Json}

theorem reset_nil (c : RunConfig) : c.reset [] = c := by
  simp [reset, ControllerConfig.reset_nil, SimulatorConfig.reset_nil]

theorem padded_toJson (c : RunConfig) : Padded c.toJson c.toJson := by
  refine .object (.refl ?_)
  simp only [List.forall_mem_cons, List.not_mem_nil, false_implies, implies_true, and_true]
  exact ⟨.object (.refl fun _ _ => rfl), .object (.refl fun _ _ => rfl)⟩

/-- The whole is read, with defaults for what was left out. -/
theorem ofSyntax?_padded (h : c.Recordable) (hj : Padded (c.toJson.without deleted) j) :
    ofSyntax? j.spelled = some (c.reset deleted) := by
  obtain ⟨hsections⟩ := hj
  obtain ⟨controller, hcontroller, readController⟩ := hsections.withDefault "controller" _
    {} (by decide) rfl fun w hw => ControllerConfig.ofSyntax?_padded h.controller hw
  obtain ⟨simulator, hsimulator, readSimulator⟩ := hsections.withDefault "simulator" _
    {} (by decide) rfl fun w hw => SimulatorConfig.ofSyntax?_padded h.simulator hw
  unfold ofSyntax?
  rw [slots?_spelled]
  simp only [List.mapM_cons, List.mapM_nil, hcontroller, hsimulator, Option.bind_eq_bind,
    Option.pure_def, Option.bind_some, readController, readSimulator]
  rfl

/-- Read from the text of a configuration with any fields and sections left out and any further members,
the fields and sections that are not there are the defaults, and all others are as they were; with nothing
left out, the configuration is read back. -/
theorem defaults_field_by_field {c : RunConfig} (h : c.Recordable) (deleted : List String) {j : Json}
    (hj : Padded (c.toJson.without deleted) j) (g : Spacing) :
    ofText? (String.ofList (spacedChars g 0 j)) = some (c.reset deleted) ∧
      ofText? (String.ofList (spacedChars g 0 c.toJson)) = some c := by
  have hread {deleted : List String} {j : Json} (hj : Padded (c.toJson.without deleted) j) :
      ofText? (String.ofList (spacedChars g 0 j)) = some (c.reset deleted) := by
    rw [ofText?, syntax?_spaced, Option.bind_some, ofSyntax?_padded h hj]
  refine ⟨hread hj, ?_⟩
  have hwhole : Padded (c.toJson.without []) c.toJson := by
    rw [without_nil]
    exact padded_toJson c
  rw [hread hwhole, reset_nil]

/-- No field has its default; several are as large or small as their words allow. -/
def extreme : RunConfig where
  controller :=
    { minStep := Step.minValue, maxStep := -1, lowBandwidthThreshold := 0.1, rounding := .towardZero }
  simulator :=
    { initialRatio := 255, initialBandwidth := -0.0, holdIterations := 0, maxIterations := maxCount }

/-- The same without one field and one section. Further members have names of fields that belong elsewhere,
and one name stands twice. -/
def sparse : Json :=
  .object
    [("note", .null),
      ("controller", .object
        [("min_step", .int Step.minValue), ("controller", .nat 1),
          ("low_bandwidth_threshold", .real 0.1), ("rounding", .string "toward-zero")]),
      ("max_step", .string "7"), ("note", .array [.object []])]

/-- It is read, and the steps are not mistaken for each other. -/
theorem defaults_field_by_field_sparse : extreme.Recordable ∧
    Padded (extreme.toJson.without ["max_step", "simulator"]) sparse ∧
    ofText? sparse.pretty = some
      { controller :=
          { minStep := Step.minValue, maxStep := 8, lowBandwidthThreshold := 0.1,
            rounding := .towardZero } } ∧
    ofText? extreme.toJson.pretty = some extreme := by
  have hrecordable : extreme.Recordable :=
    ⟨⟨by decide, by decide, by decide +kernel, readsBack_real (by decide +kernel) (by decide +kernel)⟩,
      by decide, by decide +kernel, readsBack_real (by decide +kernel) (by decide +kernel), by decide,
      by decide⟩
  have hpadded : Padded (extreme.toJson.without ["max_step", "simulator"]) sparse := by
    refine .object (.unknown (by decide) (.known ?_ (.unknown (by decide) (.unknown (by decide) .nil))))
    exact .object (.known rfl (.unknown (by decide) (.known rfl (.known rfl .nil))))
  have htext (j : Json) : String.ofList (spacedChars .indented 0 j) = j.pretty := by
    rw [pretty, prettyChars_eq]
  have hread := defaults_field_by_field hrecordable _ hpadded .indented
  rw [htext, htext] at hread
  exact ⟨hrecordable, hpadded, hread⟩

end RunConfig

end Interleave
