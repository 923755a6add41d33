import Interleave.Log.Schema

/-!
# What the schema accepts

The schema checks the members of a line before it knows their types, and passes over those of other
types. Only then are the members decoded. Where the decoding succeeds, the checks have found exactly
what the entry itself tells: a required field cannot be missing, a word of a list cannot be unknown but
for the rule, which an entry keeps as a text, and a field is given if the entry has it.

Results:
* `Schema.faults_eq_nil_iff`: the checks pass if the entry `Conforms`.
* `Schema.check_eq_ok_iff`: a text is accepted if it holds an entry that conforms.
-/
namespace Interleave

open Json

namespace LogEntry

/-- The entry that a text holds: a JSON object, the last of repeated members, other members passed
over. -/
def ofText? (text : String) : Option LogEntry :=
  match (read? text).map canonical with
  | some (.object members) => ofMembers? members
  | _ => none

/-- What the schema asks of an entry beyond the types of its fields. -/
structure Conforms (e : LogEntry) : Prop where
  traceId : [':', ':'] <:+: e.traceId.toList
  ratio : ∀ r ∈ e.ratio, r ≤ maxRatio
  rule : ∀ r ∈ e.rule, ∃ rule : Rule, rule.name = r
  explained : e.event = stepEvent → e.iteration.isSome ∧ e.phase.isSome ∧ e.ratio.isSome ∧
    e.step.isSome ∧ e.bandwidth.isSome ∧ e.rule.isSome

/-! ## Decoding -/

section
variable {α : Type} {view : Json → Option α} {o : Option Json} {x : Option α} {j : Json}

theorem optional?_some (h : j ≠ .null) : optional? view (some j) = (view j).map some := by
  cases j with
  | null => exact absurd rfl h
  | _ => rfl

/-- An optional field is empty where there is nothing or `null`, and else has what is viewed. -/
theorem optional?_cases (h : optional? view o = some x) :
    (o = none ∨ o = some .null) ∧ x = none ∨
      ∃ j v, o = some j ∧ j ≠ .null ∧ view j = some v ∧ x = some v := by
  cases o with
  | none =>
    cases h
    exact .inl ⟨.inl rfl, rfl⟩
  | some j =>
    by_cases hnull : j = .null
    · subst hnull
      cases h
      exact .inl ⟨.inr rfl, rfl⟩
    · rw [optional?_some hnull] at h
      obtain ⟨v, hv, rfl⟩ := Option.map_eq_some_iff.1 h
      exact .inr ⟨j, v, rfl, hnull, hv, rfl⟩

/-- What an optional field has is what is viewed. -/
theorem optional?_mem (h : optional? view o = some x) {v : α} (hv : v ∈ x) :
    ∃ j, o = some j ∧ j ≠ .null ∧ view j = some v := by
  rcases optional?_cases h with ⟨-, rfl⟩ | ⟨j, w, ho, hne, hview, rfl⟩
  · cases hv
  · cases hv
    exact ⟨j, ho, hne, hview⟩

theorem string?_eq_some {s : String} (h : j.string? = some s) : j = .string s := by
  cases j with
  | string t =>
    cases h
    rfl
  | _ => cases h

theorem intWithin?_eq_some {min max n : Int} (h : intWithin? min max j = some n) :
    j = .int n ∧ min ≤ n ∧ n ≤ max := by
  cases j with
  | number m =>
    cases m with
    | integer k =>
      rw [intWithin?] at h
      split at h
      · rename_i hbounds
        cases h
        exact ⟨rfl, hbounds⟩
      · cases h
    | real y => cases h
  | _ => cases h

theorem natUpTo?_eq_some {max n : Nat} (h : natUpTo? max j = some n) : j = .nat n ∧ n ≤ max := by
  obtain ⟨m, hm, rfl⟩ := Option.map_eq_some_iff.1 h
  obtain ⟨rfl, hlo, hhi⟩ := intWithin?_eq_some hm
  exact ⟨by rw [Json.nat, Int.toNat_of_nonneg hlo]; rfl, by omega⟩

end

/-- What the members of an object have for the fields of an entry. -/
structure HeldBy (e : LogEntry) (members : List (String × Json)) : Prop where
  timestamp : members.lookup "timestamp" = some (.string e.timestamp)
  traceId : members.lookup "trace_id" = some (.string e.traceId)
  level : ∃ j, members.lookup "level" = some j ∧ choice? Level.ofName? j = some e.level
  event : members.lookup "event" = some (.string e.event)
  phase : optional? (choice? Phase.ofName?) (members.lookup "phase") = some e.phase
  iteration : optional? (natUpTo? maxCount) (members.lookup "iteration") = some e.iteration
  ratio : optional? (natUpTo? 255) (members.lookup "ratio") = some e.ratio
  step : optional? (intWithin? Step.minValue Step.maxValue) (members.lookup "step") = some e.step
  bandwidth : optional? float? (members.lookup "bandwidth") = some e.bandwidth
  rule : optional? string? (members.lookup "rule") = some e.rule
  outcome : optional? (choice? Outcome.ofName?) (members.lookup "outcome") = some e.outcome
  duration : optional? (natUpTo? maxCount) (members.lookup "duration_ms") = some e.duration
  details : optional? some (members.lookup "details") = some e.details

variable {e : LogEntry} {members : List (String × Json)}

theorem heldBy_of_ofMembers? (h : ofMembers? members = some e) : e.HeldBy members := by
  unfold ofMembers? at h
  obtain ⟨timestampJson, htimestamp, h⟩ := Option.bind_eq_some_iff.1 h
  obtain ⟨timestamp, htimestamp', h⟩ := Option.bind_eq_some_iff.1 h
  obtain ⟨traceIdJson, htraceId, h⟩ := Option.bind_eq_some_iff.1 h
  obtain ⟨traceId, htraceId', h⟩ := Option.bind_eq_some_iff.1 h
  obtain ⟨levelJson, hlevel, h⟩ := Option.bind_eq_some_iff.1 h
  obtain ⟨level, hlevel', h⟩ := Option.bind_eq_some_iff.1 h
  obtain ⟨eventJson, hevent, h⟩ := Option.bind_eq_some_iff.1 h
  obtain ⟨event, hevent', h⟩ := Option.bind_eq_some_iff.1 h
  obtain ⟨runId, hrunId, h⟩ := Option.bind_eq_some_iff.1 h
  obtain ⟨component, hcomponent, h⟩ := Option.bind_eq_some_iff.1 h
  obtain ⟨phase, hphase, h⟩ := Option.bind_eq_some_iff.1 h
  obtain ⟨iteration, hiteration, h⟩ := Option.bind_eq_some_iff.1 h
  obtain ⟨ratio, hratio, h⟩ := Option.bind_eq_some_iff.1 h
  obtain ⟨step, hstep, h⟩ := Option.bind_eq_some_iff.1 h
  obtain ⟨bandwidth, hbandwidth, h⟩ := Option.bind_eq_some_iff.1 h
  obtain ⟨rule, hrule, h⟩ := Option.bind_eq_some_iff.1 h
  obtain ⟨outcome, houtcome, h⟩ := Option.bind_eq_some_iff.1 h
  obtain ⟨duration, hduration, h⟩ := Option.bind_eq_some_iff.1 h
  obtain ⟨artifacts, hartifacts, h⟩ := Option.bind_eq_some_iff.1 h
  obtain ⟨details, hdetails, h⟩ := Option.bind_eq_some_iff.1 h
  cases h
  obtain rfl := string?_eq_some htimestamp'
  obtain rfl := string?_eq_some htraceId'
  obtain rfl := string?_eq_some hevent'
  exact ⟨htimestamp, htraceId, ⟨levelJson, hlevel, hlevel'⟩, hevent, hphase, hiteration, hratio, hstep,
    hbandwidth, hrule, houtcome, hduration, hdetails⟩

end LogEntry

/-! ## Checks -/

namespace Schema

variable {e : LogEntry} {members : List (String × Json)} {field : String} {α : Type}
  {view : Json → Option α} {x : Option α}

theorem missingFaults_eq_nil_iff : missingFaults members = [] ↔
    ∀ f ∈ requiredFields, (members.lookup f).isSome := by
  simp [missingFaults]

theorem wordFaults_eq_nil_iff : wordFaults members = [] ↔
    ∀ v ∈ vocabularies, ∀ w ∈ text? members v.1, w ∈ v.2 := by
  simp [wordFaults, List.filterMap_eq_nil_iff]

theorem stepFaults_eq_nil_iff : stepFaults members = [] ↔
    (text? members "event" = some stepEvent → ∀ f ∈ explainingFields, isGiven members f = true) := by
  unfold stepFaults
  split <;> simp_all

theorem traceIdFaults_eq_nil_iff : traceIdFaults members = [] ↔
    ∀ id ∈ text? members "trace_id", isStructured id.toList = true := by
  simp [traceIdFaults]

/-- A field is given if the entry has it. -/
theorem isGiven_eq (h : LogEntry.optional? view (members.lookup field) = some x) :
    isGiven members field = x.isSome := by
  unfold isGiven
  rcases LogEntry.optional?_cases h with ⟨ho | ho, rfl⟩ | ⟨j, v, ho, hne, -, rfl⟩
  · rw [ho]
    rfl
  · rw [ho]
    rfl
  · rw [ho]
    cases j with
    | null => exact absurd rfl hne
    | _ => rfl

/-- Structured texts are those with double colons. -/
theorem isStructured_iff {cs : List Char} : isStructured cs = true ↔ [':', ':'] <:+: cs := by
  fun_induction isStructured cs with
  | case1 rest => exact iff_of_true rfl (List.prefix_append [':', ':'] rest).isInfix
  | case2 c cs hne ih =>
    have hfirst : ¬ [':', ':'] <+: c :: cs := by
      rintro ⟨rest, hrest⟩
      cases hrest
      exact hne rest rfl rfl
    rw [ih, List.infix_cons_iff, or_iff_right hfirst]
  | case3 => simp

/-- A name that is found is in the list. -/
theorem mem_names {all : List α} {name : α → String} {w : String} {x : α}
    (h : all.find? (name · = w) = some x) : w ∈ all.map name :=
  List.mem_map.2 ⟨x, List.mem_of_find?_eq_some h, by simpa using List.find?_some h⟩

theorem mem_rules {w : String} : w ∈ Rule.all.map (·.name) ↔ ∃ rule : Rule, rule.name = w := by
  have hall (rule : Rule) : rule ∈ Rule.all := by cases rule <;> decide
  simp [hall]

/-- A choice that is decoded and written as a word is known by this word. -/
theorem exists_choice {named : String → Option α} {w : String}
    (h : LogEntry.optional? (choice? named) (members.lookup field) = some x)
    (hw : w ∈ text? members field) : ∃ v, named w = some v := by
  obtain ⟨j, hj, hstring⟩ := Option.bind_eq_some_iff.1 hw
  obtain rfl := LogEntry.string?_eq_some hstring
  rw [hj] at h
  obtain ⟨v, hv, -⟩ := Option.map_eq_some_iff.1 h
  exact ⟨v, hv⟩

/-! ## Checks of an entry -/

section
variable (h : e.HeldBy members)
include h

theorem lookup_required : ∀ f ∈ requiredFields, (members.lookup f).isSome := by
  obtain ⟨level, hlevel, -⟩ := h.level
  simp only [requiredFields, List.forall_mem_cons, List.not_mem_nil, false_implies, implies_true,
    h.timestamp, h.traceId, h.event, hlevel, Option.isSome_some, and_self]

theorem text?_event : text? members "event" = some e.event := by
  rw [text?, h.event]
  rfl

theorem text?_traceId : text? members "trace_id" = some e.traceId := by
  rw [text?, h.traceId]
  rfl

theorem text?_rule : text? members "rule" = e.rule := by
  unfold text?
  rcases LogEntry.optional?_cases h.rule with ⟨ho | ho, hx⟩ | ⟨j, v, ho, -, hv, hx⟩
  · rw [ho, hx]
    rfl
  · rw [ho, hx]
    rfl
  · rw [ho, hx]
    exact hv

/-- All words of lists are known but for that of the rule, which can be any text. -/
theorem known_words : (∀ v ∈ vocabularies, ∀ w ∈ text? members v.1, w ∈ v.2) ↔
    ∀ r ∈ e.rule, ∃ rule : Rule, rule.name = r := by
  have hlevel : ∀ w ∈ text? members "level", w ∈ Level.all.map (·.name) := by
    intro w hw
    obtain ⟨j, hj, hchoice⟩ := h.level
    rw [text?, hj] at hw
    obtain rfl := LogEntry.string?_eq_some hw
    exact mem_names hchoice
  have houtcome : ∀ w ∈ text? members "outcome", w ∈ Outcome.all.map (·.name) := by
    intro w hw
    obtain ⟨x, hx⟩ := exists_choice h.outcome hw
    exact mem_names hx
  have hphase : ∀ w ∈ text? members "phase", w ∈ Phase.all.map (·.name) := by
    intro w hw
    obtain ⟨x, hx⟩ := exists_choice h.phase hw
    exact mem_names hx
  simp only [vocabularies, List.forall_mem_cons, List.not_mem_nil, false_implies, implies_true, and_true]
  rw [text?_rule h]
  simp only [mem_rules]
  exact ⟨fun hwords => hwords.2.2.2, fun hrules => ⟨hlevel, houtcome, hphase, hrules⟩⟩

theorem given_fields : (∀ f ∈ explainingFields, isGiven members f = true) ↔
    e.iteration.isSome ∧ e.phase.isSome ∧ e.ratio.isSome ∧ e.step.isSome ∧ e.bandwidth.isSome ∧
      e.rule.isSome := by
  simp [explainingFields, isGiven_eq h.iteration, isGiven_eq h.phase, isGiven_eq h.ratio,
    isGiven_eq h.step, isGiven_eq h.bandwidth, isGiven_eq h.rule]

theorem ratioFaults_eq_nil_iff : ratioFaults members = [] ↔ ∀ r ∈ e.ratio, r ≤ maxRatio := by
  unfold ratioFaults
  rcases LogEntry.optional?_cases h.ratio with ⟨ho | ho, hx⟩ | ⟨j, v, ho, -, hv, hx⟩
  · simp [ho, hx]
  · simp [ho, hx]
  · obtain ⟨rfl, -⟩ := LogEntry.natUpTo?_eq_some hv
    have hrange : 100 < (v : Int) ↔ ¬v ≤ maxRatio := by
      unfold maxRatio
      omega
    simp [ho, hx, Json.nat, hrange]

/-- The checks pass if the entry conforms. -/
theorem faults_eq_nil_iff : faults members = [] ↔ e.Conforms := by
  unfold faults
  simp only [List.append_eq_nil_iff, missingFaults_eq_nil_iff, wordFaults_eq_nil_iff,
    stepFaults_eq_nil_iff, traceIdFaults_eq_nil_iff, ratioFaults_eq_nil_iff h, known_words h,
    given_fields h, text?_event h, text?_traceId h, Option.some.injEq, Option.mem_some_iff,
    forall_eq', isStructured_iff]
  constructor
  · rintro ⟨⟨⟨⟨-, hrule⟩, hexplained⟩, hratio⟩, hid⟩
    exact ⟨hid, hratio, hrule, hexplained⟩
  · rintro ⟨hid, hratio, hrule, hexplained⟩
    exact ⟨⟨⟨⟨lookup_required h, hrule⟩, hexplained⟩, hratio⟩, hid⟩

end

/-- Members are accepted if they are those of an entry that conforms. -/
theorem checkMembers_eq_ok_iff :
    checkMembers members = .ok e ↔ LogEntry.ofMembers? members = some e ∧ e.Conforms := by
  unfold checkMembers
  constructor
  · intro h
    split at h
    · cases h
    · rename_i hfaults
      split at h
      · cases h
      · rename_i hentry
        cases h
        exact ⟨hentry, (faults_eq_nil_iff (LogEntry.heldBy_of_ofMembers? hentry)).1 hfaults⟩
  · rintro ⟨hentry, hconforms⟩
    rw [(faults_eq_nil_iff (LogEntry.heldBy_of_ofMembers? hentry)).2 hconforms, hentry]

/-- A text is accepted if it holds an entry that conforms. -/
theorem check_eq_ok_iff {text : String} :
    check text = .ok e ↔ LogEntry.ofText? text = some e ∧ e.Conforms := by
  unfold check LogEntry.ofText?
  cases (Json.read? text).map canonical with
  | none => simp
  | some j =>
    cases j with
    | object members => exact checkMembers_eq_ok_iff
    | _ => simp

end Schema

end Interleave
