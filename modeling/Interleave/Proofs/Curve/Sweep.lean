import Interleave.Curve.Sweep
import Interleave.Proofs.Json.Records

/-!
# Sweeps are read back

A sweep is printed over several lines, as an object that leaves out a description that is not there. It is
read back if its bandwidths are (`Sweep.Recordable`): ratios fit a byte, and texts are read back whatever
they hold.

Results:
* `Sweep.ofText?_text_eq`: the text of a sweep is read as the sweep, or not at all.
* `Sweep.ofText?_text`: the text of a recordable sweep is read as the sweep.
-/
namespace Interleave

open Json

/-- A point that JSON keeps: the ratio fits a byte, and the bandwidth is finite and read back. -/
structure CurvePoint.Recordable (p : CurvePoint Float) : Prop where
  ratio_le : p.ratio ≤ 255
  isFinite : p.bandwidth.isFinite = true
  readsBack : (Json.Number.real p.bandwidth).ReadsBack

namespace Sweep

/-- A sweep that JSON keeps. -/
def Recordable (s : Sweep) : Prop := ∀ p ∈ s.points, p.Recordable

variable {s : Sweep}

theorem pointOfSyntax?_spelled {p : CurvePoint Float} (hratio : p.ratio ≤ 255)
    (hread : p.bandwidth.isFinite = true → (Json.Number.real p.bandwidth).ReadsBack) :
    pointOfSyntax? (pointJson p).spelled = if p.bandwidth.isFinite = true then some p else none := by
  unfold pointOfSyntax? pointJson
  rw [slots?_spelled]
  by_cases hfinite : p.bandwidth.isFinite = true <;>
    simp [Syntax.slot?, Slot.required, fit?_nat hratio (by decide), fit?_real hread, hfinite]

theorem omittable_text (text : String) :
    (Slot.given (Json.string text).spelled).omittable (·.fit? Json.string?) = some (some text) := by
  show ((Json.string text).spelled.fit? Json.string?).map some = _
  rw [fit?_string]
  rfl

theorem ofSyntax?_spelled (hratio : ∀ p ∈ s.points, p.ratio ≤ 255)
    (hread : ∀ p ∈ s.points, p.bandwidth.isFinite = true → (Json.Number.real p.bandwidth).ReadsBack) :
    ofSyntax? s.toJson.spelled =
      if ∀ p ∈ s.points, p.bandwidth.isFinite = true then some s else none := by
  have hpoints := list?_spelled fun p hp => pointOfSyntax?_spelled (hratio p hp) (hread p hp)
  have htext (text : String) : (Json.string text).spelled.fit? Json.string? = some text :=
    fit?_string text _
  have hgiven {β : Type} (read : List (CurvePoint Float) → Option β) :
      ((Json.array (s.points.map pointJson)).spelled.list? pointOfSyntax?).bind read =
        if ∀ p ∈ s.points, p.bandwidth.isFinite = true then read s.points else none := by
    rw [hpoints]
    split <;> rfl
  obtain ⟨version, name, description, points⟩ := s
  unfold ofSyntax? toJson
  rw [slots?_spelled]
  cases description with
  | none =>
    simp [Syntax.slot?, Slot.required, Slot.omittable, Slot.optional, Json.member?, htext, hgiven]
  | some description =>
    simp [Syntax.slot?, Slot.required, omittable_text, Json.member?, htext, hgiven]

/-- The text of a sweep is read as the sweep if its bandwidths are finite, and not at all otherwise. -/
theorem ofText?_text_eq (hratio : ∀ p ∈ s.points, p.ratio ≤ 255)
    (hread : ∀ p ∈ s.points, p.bandwidth.isFinite = true → (Json.Number.real p.bandwidth).ReadsBack) :
    ofText? s.text = if ∀ p ∈ s.points, p.bandwidth.isFinite = true then some s else none := by
  rw [ofText?, text, syntax?_pretty, Option.bind_some, ofSyntax?_spelled hratio hread]

/-- The text of a recordable sweep is read as the sweep. -/
theorem ofText?_text (h : s.Recordable) : ofText? s.text = some s := by
  rw [ofText?_text_eq (fun p hp => (h p hp).ratio_le) fun p hp _ => (h p hp).readsBack,
    if_pos fun p hp => (h p hp).isFinite]

end Sweep

end Interleave
