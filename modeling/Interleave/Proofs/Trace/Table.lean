import Interleave.Proofs.Curve.Formats
import Interleave.Proofs.Json.Nearest
import Interleave.Proofs.Trace.Document

/-!
# The table of a trace

The table has a line for its header and one for each point, in their order. No field of either holds a
comma, a quote or a line end, so the fields are found again by a split at the line feeds and one at the
commas, and no field needs quotes. Read back they give all of the point but its rule, whatever its numbers
are: a bandwidth that is no finite number is written as a word.

Results:
* `Trace.cells_toTable`: the fields of the table, line by line.
* `TracePoint.ofFields?_fields`: the fields of a point are read as the point.
* `Trace.table_carries_points`: the table tells the points, and agrees with the JSON on them.
-/
namespace Interleave

/-! ## Fields -/

/-- A character that stands for itself in a table. -/
def Bare (c : Char) : Prop := c ∉ [',', '"', '\n', '\r']

instance (c : Char) : Decidable (Bare c) := inferInstanceAs (Decidable (c ∉ _))

theorem bare_of_isDigit {c : Char} (h : c.isDigit = true) : Bare c := by
  intro hc
  simp only [List.mem_cons, List.not_mem_nil, or_false] at hc
  rcases hc with rfl | rfl | rfl | rfl <;> cases h

theorem bare_digits (n : Nat) : ∀ c ∈ Decimal.digits n, Bare c :=
  fun _ hc => bare_of_isDigit (Decimal.isDigit_of_mem_digits hc)

theorem bare_nat (n : Nat) : ∀ c ∈ (toString n).toList, Bare c := by
  rw [toList_toString_nat]
  exact bare_digits n

theorem bare_int (n : Int) : ∀ c ∈ (toString n).toList, Bare c := by
  cases n with
  | ofNat n => exact bare_nat n
  | negSucc n =>
    rw [toList_toString_negSucc, List.forall_mem_cons]
    exact ⟨by decide, bare_digits _⟩

theorem bare_placePoint {digits : List Char} (h : ∀ c ∈ digits, Bare c) (exponent : Int) :
    ∀ c ∈ Layout.placePoint false digits exponent, Bare c := by
  have hzeros (n : Nat) : ∀ c ∈ List.replicate n '0', Bare c := by
    intro c hc
    rw [(List.mem_replicate.1 hc).2]
    decide
  unfold Layout.placePoint
  split
  · rw [List.forall_mem_append, List.forall_mem_append]
    exact ⟨⟨h, hzeros _⟩, List.forall_mem_nil _⟩
  · dsimp only
    split
    · rw [List.forall_mem_append, List.forall_mem_cons]
      exact ⟨fun c hc => h c (List.mem_of_mem_take hc), by decide,
        fun c hc => h c (List.mem_of_mem_drop hc)⟩
    · rw [List.cons_append, List.cons_append, List.forall_mem_cons, List.forall_mem_cons,
        List.forall_mem_append]
      exact ⟨by decide, by decide, hzeros _, h⟩

theorem bare_finite (sign : Float.Model.UnpackedFloat.Sign) (mantissa : Nat) (exponent : Int) :
    ∀ c ∈ Layout.plain.finite sign mantissa exponent, Bare c := by
  have hbody : ∀ c ∈ Layout.plain.unsigned (Shortest.decimal Layout.plain.tie mantissa exponent), Bare c :=
    bare_placePoint (bare_digits _) _
  cases sign with
  | positive => exact hbody
  | negative => exact List.forall_mem_cons.2 ⟨by decide, hbody⟩

theorem bare_plainText (x : Float) : ∀ c ∈ (plainText x).toList, Bare c := by
  unfold plainText Layout.format
  split
  · simp [Bare]
  · simp [Bare]
  · simp [Bare]
  · rw [String.toList_ofList]
    exact bare_finite _ _ _
  · rw [String.toList_ofList]
    exact bare_finite _ _ _

/-- No field of a point needs quotes. -/
theorem TracePoint.bare_fields (p : TracePoint) : ∀ field ∈ p.fields, ∀ c ∈ field.toList, Bare c := by
  simp only [fields, List.forall_mem_cons, List.not_mem_nil, false_implies, implies_true, and_true]
  refine ⟨bare_nat _, ?_, bare_nat _, bare_int _, bare_plainText _⟩
  cases p.phase <;> simp [Phase.name, Bare]

theorem Trace.bare_tableHeader : ∀ field ∈ tableHeader, ∀ c ∈ field.toList, Bare c := by
  simp [tableHeader, Bare]

/-! ## Lines -/

namespace Trace

/-- The fields of a text, line by line. -/
def cells (text : String) : List (List String) :=
  (text.toList.splitOn '\n').map fun line => (line.splitOn ',').map String.ofList

theorem not_mem_of_bare {c : Char} {cs : List Char} (h : ∀ d ∈ cs, Bare d) (hc : ¬Bare c) : c ∉ cs :=
  fun hmem => hc (h c hmem)

/-- The fields of a row, without its line end. -/
theorem toList_tableRow (fields : List String) :
    (tableRow fields).toList = [','].intercalate (fields.map String.toList) ++ ['\n'] := by
  rw [tableRow, String.toList_append, String.toList_intercalate]
  rfl

theorem not_mem_intercalate {fields : List String} (h : ∀ field ∈ fields, ∀ c ∈ field.toList, Bare c) :
    '\n' ∉ [','].intercalate (fields.map String.toList) := by
  induction fields with
  | nil => exact List.not_mem_nil
  | cons field fields ih =>
    rw [List.forall_mem_cons] at h
    have hfield := not_mem_of_bare h.1 (c := '\n') (by decide)
    cases fields with
    | nil => simpa [List.intercalate_singleton] using hfield
    | cons next fields =>
      rw [List.map_cons, List.map_cons, List.intercalate_cons_cons, List.mem_append, List.mem_append]
      rintro ((hmem | hmem) | hmem)
      · exact hfield hmem
      · exact absurd hmem (by decide)
      · exact ih h.2 hmem

theorem splitOn_row {fields : List String} (hne : fields ≠ [])
    (h : ∀ field ∈ fields, ∀ c ∈ field.toList, Bare c) :
    (([','].intercalate (fields.map String.toList)).splitOn ',').map String.ofList = fields := by
  rw [List.splitOn_intercalate ',' ?_ (by simpa using hne), List.map_map]
  · simp [Function.comp_def]
  · intro cs hcs
    obtain ⟨field, hfield, rfl⟩ := List.mem_map.1 hcs
    exact not_mem_of_bare (h field hfield) (by decide)

/-- Rows whose fields need no quotes are found again. -/
theorem cells_rows {rows : List (List String)}
    (h : ∀ row ∈ rows, row ≠ [] ∧ ∀ field ∈ row, ∀ c ∈ field.toList, Bare c) :
    cells (String.join (rows.map tableRow)) = rows ++ [[""]] := by
  induction rows with
  | nil => rfl
  | cons row rows ih =>
    rw [List.forall_mem_cons] at h
    have hline := List.splitOn_eq_singleton (not_mem_intercalate h.1.2)
    have ih := ih h.2
    unfold cells at ih ⊢
    rw [String.toList_join] at ih ⊢
    rw [List.map_cons, List.flatMap_cons, toList_tableRow, List.append_assoc, List.singleton_append,
      List.splitOn_append_cons_self, hline, List.map_append, ih, List.map_singleton,
      splitOn_row h.1.1 h.1.2]
    rfl

theorem cells_toTable (t : Trace) :
    cells t.toTable = tableHeader :: t.points.map TracePoint.fields ++ [[""]] := by
  have hrows : t.toTable = String.join ((tableHeader :: t.points.map TracePoint.fields).map tableRow) := by
    rw [toTable, List.map_cons, List.map_map]
    rfl
  rw [hrows, cells_rows]
  simp only [List.forall_mem_cons, List.forall_mem_map]
  exact ⟨⟨by decide, bare_tableHeader⟩, fun p _ => ⟨by simp [TracePoint.fields], p.bare_fields⟩⟩

end Trace

/-! ## Points -/

namespace TracePoint

/-- A point without its rule. -/
def unruled (p : TracePoint) : TracePoint := { p with rule := none }

/-- Reads the fields of a point. -/
def ofFields? : List String → Option TracePoint
  | [iteration, phase, ratio, step, bandwidth] => do
    pure
      { iteration := ← Literal.natUpTo? maxCount iteration
        phase := ← Phase.ofName? phase
        ratio := ← Literal.natUpTo? 255 ratio
        step := ← Literal.intWithin? Step.minValue Step.maxValue step
        bandwidth := ← Literal.float? bandwidth
        rule := none }
  | _ => none

/-- Reads a point in JSON, where its bandwidth is what the digits stand for. -/
def described? (s : Json.Syntax) : Option TracePoint := do
  match ← s.slots? ["iteration", "phase", "ratio", "step", "bandwidth"] with
  | [iteration, phase, ratio, step, bandwidth] =>
    pure
      { iteration := ← iteration.required (·.fit? (Json.natUpTo? maxCount))
        phase := ← phase.required (·.fit? (Json.choice? Phase.ofName?))
        ratio := ← ratio.required (·.fit? (Json.natUpTo? 255))
        step := ← step.required (·.fit? (Json.intWithin? Step.minValue Step.maxValue))
        bandwidth := ← bandwidth.required Json.Syntax.nearest?
        rule := none }
  | _ => none

variable {p : TracePoint}

/-- The fields of a point are read as the point, whatever its bandwidth is. -/
theorem ofFields?_fields (h : p.InWords) : ofFields? p.fields = some p.unruled := by
  rw [fields, ofFields?, Literal.natUpTo?_toString h.iteration, Phase.ofName?_name,
    Literal.natUpTo?_toString h.ratio, Literal.intWithin?_toString h.step, Literal.float?_plainText]
  rfl

/-- The JSON of a point describes it, if its bandwidth is finite. -/
theorem described?_spelled (h : p.InWords) (hfinite : p.bandwidth.isFinite = true) :
    described? p.toJson.spelled = some p.unruled := by
  have hiteration := Json.fit?_nat h.iteration le_rfl
  have hratio := Json.fit?_nat h.ratio (by decide)
  have hstep := Json.fit?_int h.step (by decide) (by decide)
  have hbandwidth : (Json.real p.bandwidth).spelled.nearest? = some p.bandwidth := by
    rw [Json.real_of_finite hfinite, Json.spelled_number (n := .real p.bandwidth) hfinite]
    exact congrArg some (Json.Numeral.nearest_realNumeral hfinite)
  obtain ⟨iteration, phase, ratio, step, bandwidth, rule⟩ := p
  unfold described? toJson
  rw [Json.slots?_spelled]
  cases rule <;>
    simp [Json.Syntax.slot?, Json.Slot.required, Json.member?, hiteration, fit?_phase, hratio, hstep,
      hbandwidth, unruled]

end TracePoint

namespace Trace

/-- Reads the points of a table, line by line. -/
def pointsOfTable? (text : String) : Option (List TracePoint) :=
  match cells text with
  | header :: rows => if header = tableHeader then rows.dropLast.mapM TracePoint.ofFields? else none
  | [] => none

/-- Reads the points of a trace in JSON, where every bandwidth is what its digits stand for. -/
def pointsOfJson? (text : String) : Option (List TracePoint) := do
  match ← (← Json.syntax? text).slots? ["points"] with
  | [points] => points.required (·.list? TracePoint.described?)
  | _ => none

variable {t : Trace}

theorem mapM_map_eq_some {α β γ : Type} {write : α → β} {read : β → Option γ} {kept : α → γ} {xs : List α}
    (h : ∀ x ∈ xs, read (write x) = some (kept x)) : (xs.map write).mapM read = some (xs.map kept) := by
  induction xs with
  | nil => rfl
  | cons x xs ih =>
    rw [List.forall_mem_cons] at h
    rw [List.map_cons, List.mapM_cons, h.1, ih h.2]
    rfl

/-- The table of a trace is read as its points. -/
theorem pointsOfTable?_render (h : t.InWords) :
    pointsOfTable? (t.render .csv) = some (t.points.map TracePoint.unruled) := by
  rw [pointsOfTable?, render, cells_toTable, List.cons_append]
  simp only [if_pos, List.dropLast_concat]
  exact mapM_map_eq_some fun p hp => TracePoint.ofFields?_fields (h.points p hp)

/-- The JSON of a trace describes its points, if their bandwidths are finite. -/
theorem pointsOfJson?_render (h : t.InWords) (hfinite : ∀ p ∈ t.points, p.bandwidth.isFinite = true) :
    pointsOfJson? (t.render .json) = some (t.points.map TracePoint.unruled) := by
  have hpoints : (Json.array (t.points.map TracePoint.toJson)).spelled.list? TracePoint.described? =
      some (t.points.map TracePoint.unruled) := by
    rw [Json.spelled, Json.Syntax.list?, Json.spelledItems_eq_map, List.map_map]
    exact mapM_map_eq_some fun p hp => TracePoint.described?_spelled (h.points p hp) (hfinite p hp)
  rw [pointsOfJson?, render, Json.syntax?_pretty, toJson]
  simp [Json.slots?_spelled, Json.Syntax.slot?, Json.Slot.required, hpoints]

/-- The table has the header and then one line of bare fields for each point, in their order, and reading
these gives the points without their rules, whatever their numbers are. So a table tells the points of its
trace, and it tells the same points as the JSON of the trace, where that is read at all. -/
theorem table_carries_points (h : t.InWords) :
    cells (t.render .csv) = tableHeader :: t.points.map TracePoint.fields ++ [[""]] ∧
      (∀ line ∈ cells (t.render .csv), ∀ field ∈ line, ∀ c ∈ field.toList, Bare c) ∧
      pointsOfTable? (t.render .csv) = some (t.points.map TracePoint.unruled) ∧
      (∀ t' : Trace, t'.InWords → t'.render .csv = t.render .csv →
        t'.points.map TracePoint.unruled = t.points.map TracePoint.unruled) ∧
      ((∀ p ∈ t.points, p.bandwidth.isFinite = true) →
        pointsOfJson? (t.render .json) = pointsOfTable? (t.render .csv) ∧
          ((∀ p ∈ t.points, (Json.Number.real p.bandwidth).ReadsBack) →
            (ofText? (t.render .json)).map (·.points.map TracePoint.unruled) =
              pointsOfTable? (t.render .csv))) := by
  have hread := pointsOfTable?_render h
  refine ⟨cells_toTable t, ?_, hread, ?_, ?_⟩
  · rw [render, cells_toTable]
    simp only [List.forall_mem_append, List.forall_mem_cons, List.forall_mem_map]
    exact ⟨⟨bare_tableHeader, fun p _ => p.bare_fields⟩, by simp⟩
  · intro t' h' hsame
    have hread' := pointsOfTable?_render h'
    rw [hsame, hread] at hread'
    exact (Option.some.inj hread').symm
  · intro hfinite
    refine ⟨by rw [pointsOfJson?_render h hfinite, hread], fun hback => ?_⟩
    rw [ofText?_render h fun p hp _ => hback p hp, if_pos hfinite, hread]
    rfl

/-- A trace of bandwidths that are no numbers, too large, too small, or a negative zero. -/
def odd : Trace where
  points :=
    [⟨0, .primary, 0, 0, 0.0 / 0.0, none⟩, ⟨1, .primary, 92, -8, 1.0 / 0.0, some .coldStart⟩,
      ⟨2, .secondary, 255, Step.maxValue, -1.0 / 0.0, none⟩,
      ⟨3, .secondary, 1, Step.minValue, -0.0, none⟩, ⟨maxCount, .secondary, 100, 1, 0.1, none⟩]
  primaryConvergedAt := none
  switchedAt := some 2
  secondaryConvergedAt := none

/-- All of them are read back, each as it was. -/
theorem table_carries_points_odd : odd.InWords ∧
    pointsOfTable? (odd.render .csv) = some
      [⟨0, .primary, 0, 0, 0.0 / 0.0, none⟩, ⟨1, .primary, 92, -8, 1.0 / 0.0, none⟩,
        ⟨2, .secondary, 255, Step.maxValue, -1.0 / 0.0, none⟩,
        ⟨3, .secondary, 1, Step.minValue, -0.0, none⟩, ⟨maxCount, .secondary, 100, 1, 0.1, none⟩] := by
  have hwords : odd.InWords :=
    ⟨by simp only [odd, List.forall_mem_cons, List.not_mem_nil, false_implies, implies_true, and_true]
        exact ⟨⟨by decide, by decide, by decide⟩, ⟨by decide, by decide, by decide⟩,
          ⟨by decide, by decide, by decide⟩, ⟨by decide, by decide, by decide⟩,
          ⟨by decide, by decide, by decide⟩⟩,
      by simp [odd], by simp [odd, maxCount], by simp [odd]⟩
  exact ⟨hwords, (table_carries_points hwords).2.2.1⟩

end Trace

end Interleave
