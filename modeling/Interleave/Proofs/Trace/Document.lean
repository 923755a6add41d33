import Interleave.Proofs.Controller.Steps
import Interleave.Proofs.Curve.Sweep
import Interleave.Trace.Export

/-!
# Traces and sweeps survive JSON

The writer of a trace leaves out a rule that is not there and writes `null` for a marker that is not there,
and a sweep leaves out a description. The reader takes an absent member for each of these, and `null` for
all of them but no other member. So whatever is present, a trace is read as the trace that was written if
its numbers fit the words that hold them (`Trace.InWords`) and its bandwidths are finite. A bandwidth that
is not finite is written as `null`, where the reader asks for a number.

That a finite bandwidth is read back is asked of the reader of numbers (`ReadsBack`); integers, names and
texts are read back whatever they are.

Results:
* `TracePoint.ofSyntax?_spelled`: one point, with a rule or without.
* `Trace.ofText?_render`: a trace, with any of its markers.
* `finite_survives_json`: exactly the traces and sweeps with finite bandwidths are read back.
-/
namespace Interleave

open Json

/-! ## Points -/

namespace TracePoint

/-- The numbers of a point fit the words that hold them. -/
structure InWords (p : TracePoint) : Prop where
  iteration : p.iteration ≤ maxCount
  ratio : p.ratio ≤ 255
  step : Step.InWord p.step

variable {p : TracePoint}

theorem fit?_phase (phase : Phase) :
    (Json.string phase.name).spelled.fit? (choice? Phase.ofName?) = some phase :=
  (fit?_string phase.name _).trans (Phase.ofName?_name phase)

/-- A rule that is there is no `null`. -/
theorem optional_rule (rule : Rule) :
    (Slot.given (Json.string rule.name).spelled).optional (·.fit? (choice? Rule.ofName?)) =
      some (some rule) := by
  show ((Json.string rule.name).spelled.fit? (choice? Rule.ofName?)).map some = _
  rw [fit?_string, choice?, Rule.ofName?_name]
  rfl

/-- A point is read if its bandwidth is finite. -/
theorem ofSyntax?_spelled (h : p.InWords)
    (hread : p.bandwidth.isFinite = true → (Number.real p.bandwidth).ReadsBack) :
    ofSyntax? p.toJson.spelled = if p.bandwidth.isFinite = true then some p else none := by
  have hiteration := fit?_nat h.iteration le_rfl
  have hratio := fit?_nat h.ratio (by decide)
  have hstep := fit?_int h.step (by decide) (by decide)
  have hbandwidth := fit?_real hread
  obtain ⟨iteration, phase, ratio, step, bandwidth, rule⟩ := p
  unfold ofSyntax? toJson
  rw [slots?_spelled]
  by_cases hfinite : bandwidth.isFinite = true
  all_goals
    cases rule with
    | none =>
      simp [Syntax.slot?, Slot.required, Slot.optional, member?, hiteration, fit?_phase, hratio, hstep,
        hbandwidth, hfinite]
    | some rule =>
      simp [Syntax.slot?, Slot.required, optional_rule, member?, hiteration, fit?_phase, hratio, hstep,
        hbandwidth, hfinite]

end TracePoint

/-! ## Traces -/

namespace Trace

/-- The numbers of a trace fit the words that hold them. -/
structure InWords (t : Trace) : Prop where
  points : ∀ p ∈ t.points, p.InWords
  primaryConvergedAt : ∀ i ∈ t.primaryConvergedAt, i ≤ maxCount
  switchedAt : ∀ i ∈ t.switchedAt, i ≤ maxCount
  secondaryConvergedAt : ∀ i ∈ t.secondaryConvergedAt, i ≤ maxCount

variable {t : Trace}

/-- A marker, or `null` for none. -/
theorem optional_marker {marker : Option Nat} (h : ∀ i ∈ marker, i ≤ maxCount) :
    (Slot.given (Json.orNull .nat marker).spelled).optional (·.fit? (natUpTo? maxCount)) =
      some marker := by
  cases marker with
  | none => rfl
  | some i =>
    show ((Json.nat i).spelled.fit? (natUpTo? maxCount)).map some = _
    rw [fit?_nat (h i rfl) le_rfl]
    rfl

theorem ofSyntax?_spelled (h : t.InWords)
    (hread : ∀ p ∈ t.points, p.bandwidth.isFinite = true → (Number.real p.bandwidth).ReadsBack) :
    ofSyntax? t.toJson.spelled =
      if ∀ p ∈ t.points, p.bandwidth.isFinite = true then some t else none := by
  have hpoints := list?_spelled fun p hp => TracePoint.ofSyntax?_spelled (h.points p hp) (hread p hp)
  have hgiven {β : Type} (read : List TracePoint → Option β) :
      ((Json.array (t.points.map TracePoint.toJson)).spelled.list? TracePoint.ofSyntax?).bind read =
        if ∀ p ∈ t.points, p.bandwidth.isFinite = true then read t.points else none := by
    rw [hpoints]
    split <;> rfl
  unfold ofSyntax? toJson
  rw [slots?_spelled]
  simp [Syntax.slot?, Slot.required, hgiven, optional_marker h.primaryConvergedAt,
    optional_marker h.switchedAt, optional_marker h.secondaryConvergedAt]

/-- The JSON of a trace is read as the trace if its bandwidths are finite, and not at all otherwise. -/
theorem ofText?_render (h : t.InWords)
    (hread : ∀ p ∈ t.points, p.bandwidth.isFinite = true → (Number.real p.bandwidth).ReadsBack) :
    ofText? (t.render .json) =
      if ∀ p ∈ t.points, p.bandwidth.isFinite = true then some t else none := by
  rw [ofText?, render, syntax?_pretty, Option.bind_some, ofSyntax?_spelled h hread]

end Trace

/-! ## Both -/

/-- Whatever of its markers, rules and description is there, a trace or a sweep is read back from its JSON
if its bandwidths are finite, and not at all otherwise. -/
theorem finite_survives_json {t : Trace} {s : Sweep} (ht : t.InWords)
    (htread : ∀ p ∈ t.points, p.bandwidth.isFinite = true → (Number.real p.bandwidth).ReadsBack)
    (hs : ∀ p ∈ s.points, p.ratio ≤ 255)
    (hsread : ∀ p ∈ s.points, p.bandwidth.isFinite = true → (Number.real p.bandwidth).ReadsBack) :
    (Trace.ofText? (t.render .json) =
        if ∀ p ∈ t.points, p.bandwidth.isFinite = true then some t else none) ∧
      Sweep.ofText? s.text =
        if ∀ p ∈ s.points, p.bandwidth.isFinite = true then some s else none :=
  ⟨Trace.ofText?_render ht htread, Sweep.ofText?_text_eq hs hsread⟩

/-- A trace with some of its rules and markers, a negative zero and the largest numbers. -/
def Trace.mixed : Trace where
  points :=
    [⟨0, .primary, 100, 0, 1.0, none⟩, ⟨1, .primary, 92, -8, 529.604, some .coldStart⟩,
      ⟨maxCount, .secondary, 255, Step.minValue, -0.0, some .lowBandwidthEscape⟩]
  primaryConvergedAt := some 1
  switchedAt := none
  secondaryConvergedAt := some maxCount

/-- A sweep with texts that need escapes, and an empty description. -/
def Sweep.escaped : Sweep where
  version := "v\"1\"\\"
  name := "\u0000é\n😀"
  description := some ""
  points := [⟨255, 0.1⟩, ⟨0, 1e300⟩]

/-- Both have finite bandwidths, and both are read back. -/
theorem finite_survives_json_mixed : Trace.mixed.InWords ∧
    (∀ p ∈ Trace.mixed.points, (Number.real p.bandwidth).ReadsBack) ∧
    (∀ p ∈ Sweep.escaped.points, (Number.real p.bandwidth).ReadsBack) ∧
    Trace.ofText? (Trace.mixed.render .json) = some .mixed ∧
    Sweep.ofText? Sweep.escaped.text = some .escaped := by
  have hwords : Trace.mixed.InWords :=
    ⟨by simp only [Trace.mixed, List.forall_mem_cons, List.not_mem_nil, false_implies, implies_true,
        and_true]
        exact ⟨⟨by decide, by decide, by decide⟩, ⟨by decide, by decide, by decide⟩,
          ⟨by decide, by decide, by decide⟩⟩,
      by simp [Trace.mixed, maxCount], by simp [Trace.mixed], by simp [Trace.mixed]⟩
  have htread : ∀ p ∈ Trace.mixed.points, (Number.real p.bandwidth).ReadsBack := by
    simp only [Trace.mixed, List.forall_mem_cons, List.not_mem_nil, false_implies, implies_true, and_true]
    exact ⟨readsBack_real (by decide +kernel) (by decide +kernel),
      readsBack_real (by decide +kernel) (by decide +kernel),
      readsBack_real (by decide +kernel) (by decide +kernel)⟩
  have hsread : ∀ p ∈ Sweep.escaped.points, (Number.real p.bandwidth).ReadsBack := by
    simp only [Sweep.escaped, List.forall_mem_cons, List.not_mem_nil, false_implies, implies_true, and_true]
    exact ⟨readsBack_real (by decide +kernel) (by decide +kernel),
      readsBack_real (by decide +kernel) (by decide +kernel)⟩
  obtain ⟨htrace, hsweep⟩ := finite_survives_json hwords (fun p hp _ => htread p hp)
    (by decide : ∀ p ∈ Sweep.escaped.points, p.ratio ≤ 255) fun p hp _ => hsread p hp
  rw [if_pos (by decide +kernel)] at htrace hsweep
  exact ⟨hwords, htread, hsread, htrace, hsweep⟩

end Interleave
