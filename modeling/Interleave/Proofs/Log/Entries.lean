import Interleave.Proofs.Controller.Steps
import Interleave.Proofs.Json.Canonical
import Interleave.Proofs.Json.Records
import Interleave.Proofs.Log.Checks

/-!
# Entries that are read back

An entry whose values fit their types is read back from its line (`Storable`). All that a line loses is a
bandwidth that is not finite and details that are `null`, which both come back as none (`kept`). The
writer lists the fields one by one, and the reader looks them up by name after they have been sorted, so
all that counts is what each name has (`lookup_members`). A well-formed entry is moreover one that the
schema accepts.

Results:
* `LogEntry.read?_line`: the line of a storable entry is read as the object that was written.
* `LogEntry.ofText?_line`: the line of a storable entry holds what is kept of the entry.
* `LogEntry.check_line`: the line of a well-formed entry is accepted and gives the entry.
-/
namespace Interleave

open Json

namespace LogEntry

/-! ## Fields -/

/-- The fields of an entry and their values, in the order of the line. -/
def fields (e : LogEntry) : List (String × Option Json) :=
  [("timestamp", some (.string e.timestamp)), ("trace_id", some (.string e.traceId)),
    ("level", some (.string e.level.name)), ("event", some (.string e.event)),
    ("run_id", e.runId.map .string), ("component", e.component.map .string),
    ("phase", e.phase.map fun p => .string p.name), ("iteration", e.iteration.map .nat),
    ("ratio", e.ratio.map .nat), ("step", e.step.map .int), ("bandwidth", e.bandwidth.map .real),
    ("rule", e.rule.map .string), ("outcome", e.outcome.map fun o => .string o.name),
    ("duration_ms", e.duration.map .nat),
    ("artifact_refs", e.artifacts.map fun ps => .array (ps.map .string)), ("details", e.details)]

/-- The fields that have a value. -/
def present (fields : List (String × Option Json)) : List (String × Json) :=
  fields.filterMap fun f => f.2.map (f.1, ·)

theorem present_cons (k : String) (o : Option Json) (fs : List (String × Option Json)) :
    present ((k, o) :: fs) = (o.map (k, ·)).toList ++ present fs := by
  cases o <;> simp [present]

theorem toJson_eq (e : LogEntry) : e.toJson = .object (present e.fields) := by
  have hnil : present [] = [] := rfl
  simp only [toJson, fields, present_cons, hnil, List.append_nil, member?, Option.map_map,
    List.append_assoc]
  rfl

/-- What a name has. -/
def field (e : LogEntry) (k : String) : Option Json := (e.fields.lookup k).join

@[simp] theorem field_timestamp (e : LogEntry) : e.field "timestamp" = some (.string e.timestamp) := by
  simp [field, fields]

@[simp] theorem field_traceId (e : LogEntry) : e.field "trace_id" = some (.string e.traceId) := by
  simp [field, fields, List.lookup]

@[simp] theorem field_level (e : LogEntry) : e.field "level" = some (.string e.level.name) := by
  simp [field, fields, List.lookup]

@[simp] theorem field_event (e : LogEntry) : e.field "event" = some (.string e.event) := by
  simp [field, fields, List.lookup]

@[simp] theorem field_runId (e : LogEntry) : e.field "run_id" = e.runId.map .string := by
  simp [field, fields, List.lookup]

@[simp] theorem field_component (e : LogEntry) : e.field "component" = e.component.map .string := by
  simp [field, fields, List.lookup]

@[simp] theorem field_phase (e : LogEntry) : e.field "phase" = e.phase.map fun p => .string p.name := by
  simp [field, fields, List.lookup]

@[simp] theorem field_iteration (e : LogEntry) : e.field "iteration" = e.iteration.map .nat := by
  simp [field, fields, List.lookup]

@[simp] theorem field_ratio (e : LogEntry) : e.field "ratio" = e.ratio.map .nat := by
  simp [field, fields, List.lookup]

@[simp] theorem field_step (e : LogEntry) : e.field "step" = e.step.map .int := by
  simp [field, fields, List.lookup]

@[simp] theorem field_bandwidth (e : LogEntry) : e.field "bandwidth" = e.bandwidth.map .real := by
  simp [field, fields, List.lookup]

@[simp] theorem field_rule (e : LogEntry) : e.field "rule" = e.rule.map .string := by
  simp [field, fields, List.lookup]

@[simp] theorem field_outcome (e : LogEntry) :
    e.field "outcome" = e.outcome.map fun o => .string o.name := by
  simp [field, fields, List.lookup]

@[simp] theorem field_duration (e : LogEntry) : e.field "duration_ms" = e.duration.map .nat := by
  simp [field, fields, List.lookup]

@[simp] theorem field_artifacts (e : LogEntry) :
    e.field "artifact_refs" = e.artifacts.map fun ps => .array (ps.map .string) := by
  simp [field, fields, List.lookup]

@[simp] theorem field_details (e : LogEntry) : e.field "details" = e.details := by
  simp [field, fields, List.lookup]

theorem nodup_fields (e : LogEntry) : (e.fields.map (·.1)).Nodup := by
  change ["timestamp", "trace_id", "level", "event", "run_id", "component", "phase", "iteration",
    "ratio", "step", "bandwidth", "rule", "outcome", "duration_ms", "artifact_refs", "details"].Nodup
  decide

theorem lookup_present {fs : List (String × Option Json)} (h : (fs.map (·.1)).Nodup) (k : String) :
    (present fs).lookup k = (fs.lookup k).join := by
  induction fs with
  | nil => rfl
  | cons f fs ih =>
    obtain ⟨key, o⟩ := f
    rw [List.map_cons, List.nodup_cons] at h
    rw [present_cons, List.lookup_append, ih h.2, List.lookup_cons]
    by_cases hk : k = key
    · subst hk
      cases o <;> simp [lookup_eq_none h.1]
    · cases o <;> simp [List.lookup_cons, beq_false_of_ne hk]

theorem nodup_present {fs : List (String × Option Json)} (h : (fs.map (·.1)).Nodup) :
    ((present fs).map (·.1)).Nodup := by
  refine h.sublist ?_
  induction fs with
  | nil => exact .slnil
  | cons f fs ih =>
    obtain ⟨key, o⟩ := f
    rw [List.map_cons, List.nodup_cons] at h
    rw [present_cons]
    cases o with
    | none => exact (ih h.2).cons key
    | some j => exact (ih h.2).cons_cons key

/-- What holds of the values of all fields holds of those that are present. -/
theorem forall_present {P : Json → Prop} {fs : List (String × Option Json)}
    (h : ∀ f ∈ fs, ∀ j ∈ f.2, P j) : ∀ m ∈ present fs, P m.2 := by
  intro m hm
  obtain ⟨f, hf, hfm⟩ := List.mem_filterMap.1 hm
  obtain ⟨j, hj, rfl⟩ := Option.map_eq_some_iff.1 hfm
  exact h f hf j hj

/-- The members of an entry as the schema sees them. -/
def members (e : LogEntry) : List (String × Json) := canonicalMembers [] (present e.fields)

theorem lookup_members (e : LogEntry) (k : String) :
    e.members.lookup k = (e.field k).map canonical := by
  rw [members, lookup_canonical (nodup_present e.nodup_fields), lookup_present e.nodup_fields, field]

/-! ## Lines that are read back -/

theorem fits_int {depth : Nat} {n : Int} (h : Step.InWord n) : (Json.int n).Fits depth := by
  unfold Step.InWord Step.minValue Step.maxValue at h
  exact Json.fits_int (by omega) (by unfold maxCount; omega)

theorem fits_map {depth : Nat} {α : Type} {f : α → Json} {o : Option α}
    (h : ∀ x ∈ o, (f x).Fits depth) : ∀ j ∈ o.map f, j.Fits depth := by
  intro j hj
  obtain ⟨x, hx, rfl⟩ := Option.map_eq_some_iff.1 hj
  exact h x hx

/-- How deep the details of an entry may be nested: the entry itself is one level. -/
def detailDepth : Nat := maxDepth - 1

theorem fits_decisionDetails {d : Decision} (h : Step.InWord d.proposed) :
    (decisionDetails d).Fits detailDepth := by
  apply fits_object
  simp only [List.forall_mem_cons, List.not_mem_nil, false_implies, implies_true, and_true]
  exact ⟨fits_int h, fits_bool d.deadZone, fits_bool d.saturated, fits_bool d.ratioClamped⟩

/-- The values of an entry can be written and read: the numbers fit their types, and the details are
sorted and not nested too deep. -/
structure Storable (e : LogEntry) : Prop where
  iteration : ∀ n ∈ e.iteration, n ≤ maxCount
  ratio : ∀ n ∈ e.ratio, n ≤ 255
  step : ∀ n ∈ e.step, Step.InWord n
  bandwidth : ∀ x ∈ e.bandwidth, x.isFinite = true → (Number.real x).ReadsBack
  duration : ∀ n ∈ e.duration, n ≤ maxCount
  details : ∀ d ∈ e.details, d.Fits detailDepth ∧ d.canonical = d

/-- What a line keeps of an entry: all but a bandwidth that is not finite and details that are `null`. -/
def kept (e : LogEntry) : LogEntry :=
  { e with
    bandwidth := e.bandwidth.filter (·.isFinite)
    details := e.details.bind fun
      | .null => none
      | d => some d }

/-- Such values that moreover are all kept, with the words of the schema. -/
structure Typed (e : LogEntry) : Prop where
  traceId : Schema.isStructured e.traceId.toList = true
  rule : ∀ r ∈ e.rule, r ∈ Rule.all.map (·.name)
  iteration : ∀ n ∈ e.iteration, n ≤ maxCount
  ratio : ∀ n ∈ e.ratio, n ≤ maxRatio
  step : ∀ n ∈ e.step, Step.InWord n
  bandwidth : ∀ x ∈ e.bandwidth, x.isFinite = true ∧ (Number.real x).ReadsBack
  duration : ∀ n ∈ e.duration, n ≤ maxCount
  details : ∀ d ∈ e.details, d.Fits detailDepth ∧ d ≠ .null ∧ d.canonical = d

/-- An entry that the schema accepts: moreover, a controller step is explained. -/
structure WellFormed (e : LogEntry) : Prop extends e.Typed where
  explained : e.event = stepEvent → e.iteration.isSome ∧ e.phase.isSome ∧ e.ratio.isSome ∧
    e.step.isSome ∧ e.bandwidth.isSome ∧ e.rule.isSome

variable {e : LogEntry}

theorem Typed.storable (h : e.Typed) : e.Storable where
  iteration := h.iteration
  ratio := fun n hn => Nat.le_trans (h.ratio n hn) (by decide)
  step := h.step
  bandwidth := fun x hx _ => (h.bandwidth x hx).2
  duration := h.duration
  details := fun d hd => ⟨(h.details d hd).1, (h.details d hd).2.2⟩

theorem Typed.kept_eq (h : e.Typed) : e.kept = e := by
  have hbandwidth : e.bandwidth.filter (·.isFinite) = e.bandwidth := by
    cases hx : e.bandwidth with
    | none => rfl
    | some x => rw [Option.filter_some, if_pos (h.bandwidth x hx).1]
  have hdetails : e.kept.details = e.details := by
    unfold kept
    cases hd : e.details with
    | none => rfl
    | some d =>
      have hne := (h.details d hd).2.1
      cases d with
      | null => exact absurd rfl hne
      | _ => rfl
  calc e.kept = { e with bandwidth := e.bandwidth.filter (·.isFinite), details := e.kept.details } := rfl
    _ = e := by rw [hbandwidth, hdetails]

theorem fits_fields (h : e.Storable) : ∀ f ∈ e.fields, ∀ j ∈ f.2, j.Fits detailDepth := by
  have htext (o : Option String) : ∀ j ∈ o.map Json.string, j.Fits detailDepth :=
    fits_map fun s _ => fits_string s
  have hsome (s : String) : ∀ j ∈ some (Json.string s), j.Fits detailDepth := by
    rintro j ⟨⟩
    exact fits_string s
  simp only [fields, List.forall_mem_cons, List.not_mem_nil, false_implies, implies_true, and_true]
  refine ⟨hsome _, hsome _, hsome _, hsome _, htext _, htext _, fits_map fun p _ => fits_string p.name,
    fits_map fun n hn => fits_nat (h.iteration n hn),
    fits_map fun n hn => fits_nat (Nat.le_trans (h.ratio n hn) (by decide)),
    fits_map fun n hn => fits_int (h.step n hn),
    fits_map fun x hx => fits_real (h.bandwidth x hx), htext _,
    fits_map fun o _ => fits_string o.name, fits_map fun n hn => fits_nat (h.duration n hn),
    fits_map ?_, fun d hd => (h.details d hd).1⟩
  intro ps _
  apply fits_array
  intro x hx
  obtain ⟨p, -, rfl⟩ := List.mem_map.1 hx
  exact fits_string p

/-- The line of a storable entry is read as the object that was written. -/
theorem read?_line (h : e.Storable) : read? e.line = some (.object (present e.fields)) := by
  rw [line, toJson_eq]
  exact read?_compact (fits_object (forall_present (fits_fields h)))

/-! ## The entry of the members -/

theorem canonical_string (s : String) : canonical (.string s) = .string s := rfl

theorem canonical_number (n : Number) : canonical (.number n) = .number n := rfl

theorem canonical_real {x : Float} (h : x.isFinite = true) :
    canonical (.real x) = .number (.real x) := by
  rw [real_of_finite h, canonical_number]

/-- An optional field is read as the value that was written. -/
theorem optional?_map {α : Type} {f : α → Json} {view : Json → Option α} {o : Option α}
    (h : ∀ x ∈ o, canonical (f x) ≠ .null ∧ view (canonical (f x)) = some x) :
    optional? view ((o.map f).map canonical) = some o := by
  cases o with
  | none => rfl
  | some x =>
    obtain ⟨hne, hview⟩ := h x rfl
    rw [Option.map_some, Option.map_some, optional?_some hne, hview]
    rfl

theorem optional?_string (o : Option String) :
    optional? string? ((o.map .string).map canonical) = some o := by
  cases o <;> rfl

theorem optional?_nat {o : Option Nat} {max : Nat} (h : ∀ n ∈ o, n ≤ max) :
    optional? (natUpTo? max) ((o.map .nat).map canonical) = some o := by
  apply optional?_map
  intro n hn
  rw [Json.nat, canonical_number]
  exact ⟨by simp, natUpTo?_nat (h n hn)⟩

theorem optional?_choice {α : Type} {named : String → Option α} {name : α → String}
    (h : ∀ x, named (name x) = some x) (o : Option α) :
    optional? (choice? named) ((o.map fun x => .string (name x)).map canonical) = some o := by
  apply optional?_map
  intro x _
  rw [canonical_string]
  exact ⟨by simp, h x⟩

theorem list?_strings (ps : List String) :
    list? string? (canonical (.array (ps.map .string))) = some ps := by
  rw [canonical, list?]
  induction ps with
  | nil => rfl
  | cons p ps ih =>
    rw [List.map_cons, canonicalItems, List.mapM_cons, ih, canonical_string]
    rfl

/-- A bandwidth that is not finite was written as `null`. -/
theorem optional?_real (o : Option Float) :
    optional? float? ((o.map .real).map canonical) = some (o.filter (·.isFinite)) := by
  cases o with
  | none => rfl
  | some x =>
    by_cases hx : x.isFinite = true
    · rw [Option.filter_some, if_pos hx, Option.map_some, Option.map_some, canonical_real hx]
      rfl
    · rw [Option.filter_some, if_neg hx, Option.map_some, Option.map_some, real, if_neg hx]
      rfl

theorem ofMembers?_members (h : e.Storable) : ofMembers? e.members = some e.kept := by
  have hstep : optional? (intWithin? Step.minValue Step.maxValue)
      ((e.step.map .int).map canonical) = some e.step := by
    apply optional?_map
    intro n hn
    rw [Json.int, canonical_number]
    exact ⟨by simp, if_pos (h.step n hn)⟩
  have hartifacts : optional? (list? string?)
      ((e.artifacts.map fun ps => .array (ps.map .string)).map canonical) = some e.artifacts := by
    apply optional?_map
    intro ps _
    exact ⟨by simp [canonical], list?_strings ps⟩
  have hdetails : optional? some (e.details.map canonical) = some e.kept.details := by
    unfold kept
    cases hd : e.details with
    | none => rfl
    | some d =>
      rw [Option.map_some, (h.details d hd).2]
      cases d <;> rfl
  simp only [ofMembers?, lookup_members, field_timestamp, field_traceId, field_level, field_event,
    field_runId, field_component, field_phase, field_iteration, field_ratio, field_step, field_bandwidth,
    field_rule, field_outcome, field_duration, field_artifacts, field_details, Option.map_some,
    canonical_string, Json.string?, Json.choice?, Level.ofName?_name, optional?_string,
    optional?_choice Phase.ofName?_name, optional?_choice Outcome.ofName?_name,
    optional?_nat h.iteration, optional?_nat h.duration, optional?_nat h.ratio, optional?_real,
    hstep, hartifacts, hdetails, Option.bind_eq_bind, Option.bind_some]
  rfl

/-- The line of a storable entry holds what is kept of the entry. -/
theorem ofText?_line (h : e.Storable) : ofText? e.line = some e.kept := by
  rw [ofText?, read?_line h]
  exact ofMembers?_members h

theorem WellFormed.conforms (h : e.WellFormed) : e.Conforms where
  traceId := Schema.isStructured_iff.1 h.traceId
  ratio := h.ratio
  rule := fun r hr => Schema.mem_rules.1 (h.rule r hr)
  explained := h.explained

/-- The line of a well-formed entry is accepted, and the schema gives the entry. -/
theorem check_line (h : e.WellFormed) : Schema.check e.line = .ok e := by
  have hline := ofText?_line h.toTyped.storable
  rw [h.toTyped.kept_eq] at hline
  exact Schema.check_eq_ok_iff.2 ⟨hline, h.conforms⟩

end LogEntry

end Interleave
