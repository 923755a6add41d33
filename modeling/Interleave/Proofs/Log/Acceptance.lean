import Interleave.Proofs.Json.Readable
import Interleave.Proofs.Log.Entries

/-!
# Accepted lines written again

An entry that was read from a line is one that can be written: its words are those of the schema, its
integers are within their types, and its details are sorted and not too deep. Only its fractions are a
question of their own. So a line that is accepted can be replaced by the line of its entry.

Results:
* `LogEntry.wellFormed_of_ofText?`: an entry that was read and conforms can be written again.
* `validateLine_eq_ok_iff`: a line is accepted if it holds an entry that conforms; written again, the
  entry is accepted again.
-/
namespace Interleave

open Json

namespace LogEntry

variable {e : LogEntry} {members : List (String × Json)}

/-- The numbers that the entry does not keep as integers. -/
def reals (e : LogEntry) : List Float :=
  e.bandwidth.toList ++ (e.details.toList.flatMap numbers).filterMap fun
    | .real x => some x
    | .integer _ => none

/-- A number that is not finite is written as `null`, which is read as no number. -/
theorem finite_of_readsBack {x : Float} (h : (Number.real x).ReadsBack) : x.isFinite = true := by
  by_contra hfinite
  have hnull : (number (.real x)).compact = null.compact := by
    simp only [compact, compactChars, numberChars, if_neg hfinite]
  rw [Number.ReadsBack, hnull, read?_compact fits_null] at h
  cases h

theorem real_mem_reals {d : Json} {x : Float} (hd : d ∈ e.details) (hx : .real x ∈ numbers d) :
    x ∈ e.reals := by
  refine List.mem_append_right _ (List.mem_filterMap.2 ⟨.real x, ?_, rfl⟩)
  exact List.mem_flatMap.2 ⟨d, Option.mem_toList.2 hd, hx⟩

/-- The details of an entry that was read fit below the entry, and are sorted. -/
theorem details_of_heldBy (h : e.HeldBy members) (hreadable : Readable maxDepth (.object members))
    (hsorted : Sorted members) (hreals : ∀ x ∈ e.reals, (Number.real x).ReadsBack) :
    ∀ d ∈ e.details, d.Fits detailDepth ∧ d ≠ .null ∧ d.canonical = d := by
  intro d hd
  obtain ⟨j, hj, hne, hview⟩ := optional?_mem h.details hd
  cases hview
  have hmem : ("details", d) ∈ members := by
    obtain ⟨before, after, rfl, -⟩ := List.lookup_eq_some_iff.1 hj
    simp
  refine ⟨?_, hne, hsorted.2 _ hmem⟩
  exact (Readable.member hreadable hmem).fits fun x hx => hreals x (real_mem_reals hd hx)

/-- An entry that was read and conforms is well-formed if its fractions are read as they are written. -/
theorem wellFormed_of_heldBy (h : e.HeldBy members) (hreadable : Readable maxDepth (.object members))
    (hsorted : Sorted members) (hconforms : e.Conforms)
    (hreals : ∀ x ∈ e.reals, (Number.real x).ReadsBack) : e.WellFormed where
  traceId := Schema.isStructured_iff.2 hconforms.traceId
  rule := by
    intro r hr
    exact Schema.mem_rules.2 (hconforms.rule r hr)
  iteration := by
    intro n hn
    obtain ⟨j, -, -, hview⟩ := optional?_mem h.iteration hn
    exact (natUpTo?_eq_some hview).2
  ratio := hconforms.ratio
  step := by
    intro n hn
    obtain ⟨j, -, -, hview⟩ := optional?_mem h.step hn
    exact (intWithin?_eq_some hview).2
  bandwidth := by
    intro x hx
    have hread := hreals x (List.mem_append_left _ (Option.mem_toList.2 hx))
    exact ⟨finite_of_readsBack hread, hread⟩
  duration := by
    intro n hn
    obtain ⟨j, -, -, hview⟩ := optional?_mem h.duration hn
    exact (natUpTo?_eq_some hview).2
  details := details_of_heldBy h hreadable hsorted hreals
  explained := hconforms.explained

theorem wellFormed_of_ofText? {text : String} (h : ofText? text = some e) (hconforms : e.Conforms)
    (hreals : ∀ x ∈ e.reals, (Number.real x).ReadsBack) : e.WellFormed := by
  unfold ofText? at h
  split at h
  · rename_i members hread
    obtain ⟨j, hj, hmembers⟩ := Option.map_eq_some_iff.1 hread
    have hreadable := (readable_of_read? hj).canonical
    have hsorted : Sorted members := by
      cases j with
      | object ms =>
        cases hmembers
        exact sorted_canonicalMembers [] ms ⟨List.Pairwise.nil, List.forall_mem_nil _⟩
      | _ => cases hmembers
    rw [hmembers] at hreadable
    exact wellFormed_of_heldBy (heldBy_of_ofMembers? h) hreadable hsorted hconforms hreals
  · cases h

end LogEntry

/-- The members of a text are checked in canonical form. -/
theorem Schema.check_of_read? {text : String} {members : List (String × Json)}
    (h : read? text = some (.object members)) :
    check text = checkMembers (canonicalMembers [] members) := by
  rw [check, h]
  rfl

theorem validateLine_of_check {line : Text.NumberedLine} {e : LogEntry}
    (h : Schema.check line.text = .ok e) : validateLine line = .ok e := by
  rw [validateLine, h]
  rfl

/-- A line is accepted if it holds an entry that conforms, and the entry is what it holds. Written again
under any number, an accepted entry is accepted and the same, if its fractions are read as they are
written. -/
theorem validateLine_eq_ok_iff (line : Text.NumberedLine) (e : LogEntry) :
    (validateLine line = .ok e ↔ LogEntry.ofText? line.text = some e ∧ e.Conforms) ∧
      (validateLine line = .ok e → (∀ x ∈ e.reals, (Json.Number.real x).ReadsBack) →
        ∀ number, validateLine ⟨number, e.line⟩ = .ok e) := by
  have hcheck : validateLine line = .ok e ↔ Schema.check line.text = .ok e := by
    unfold validateLine
    cases Schema.check line.text <;> simp [Except.mapError]
  rw [hcheck, Schema.check_eq_ok_iff]
  refine ⟨Iff.rfl, ?_⟩
  rintro ⟨hread, hconforms⟩ hreals number
  exact validateLine_of_check
    (LogEntry.check_line (LogEntry.wellFormed_of_ofText? hread hconforms hreals))

/-- A controller step in an order of its own, with a ratio that is named again, a level in the long form,
a bandwidth without a fraction and a member that no entry has. -/
def LogEntry.shuffled : String :=
  "\x7b\"ratio\":null,\"rule\":\"Regressing\",\"details\":\x7b\"b\":2.5,\"a\":[1]\x7d," ++
    "\"level\":\x7b\"info\":null\x7d,\"phase\":\"primary\",\"step\":-4,\"more\":[true]," ++
    "\"event\":\"controller_step\",\"ratio\":60,\"bandwidth\":5,\"iteration\":3," ++
    "\"outcome\":null,\"trace_id\":\"run::m::3\",\"timestamp\":\"t\"\x7d"

/-- The members of that line, one after the other. -/
def LogEntry.shuffledMembers : List (String × Json) :=
  [("ratio", .null), ("rule", .string "Regressing"),
    ("details", .object [("b", .number (.real 2.5)), ("a", .array [.number (.integer 1)])]),
    ("level", .object [("info", .null)]), ("phase", .string "primary"),
    ("step", .number (.integer (-4))), ("more", .array [.bool true]),
    ("event", .string "controller_step"), ("ratio", .number (.integer 60)),
    ("bandwidth", .number (.integer 5)), ("iteration", .number (.integer 3)), ("outcome", .null),
    ("trace_id", .string "run::m::3"), ("timestamp", .string "t")]

/-- The line is read as its members, since that is how these are written. -/
theorem LogEntry.read?_shuffled : read? shuffled = some (.object shuffledMembers) := by
  have hwritten : shuffled = (Json.object shuffledMembers).compact := by decide +kernel
  have hnumbers : numbers (.object shuffledMembers) =
      [.real 2.5, .integer 1, .integer (-4), .integer 60, .integer 5, .integer 3] := by rfl
  rw [hwritten]
  refine read?_compact ⟨by decide, ?_⟩
  rw [hnumbers]
  simp only [List.forall_mem_cons, List.not_mem_nil, false_implies, implies_true, and_true]
  exact ⟨readsBack_real (by decide) (by decide +kernel), readsBack_integer (by decide) (by decide),
    readsBack_integer (by decide) (by decide), readsBack_integer (by decide) (by decide),
    readsBack_integer (by decide) (by decide), readsBack_integer (by decide) (by decide)⟩

/-- The same entry as it is written. -/
def LogEntry.ordered : String :=
  "\x7b\"timestamp\":\"t\",\"trace_id\":\"run::m::3\",\"level\":\"info\"," ++
    "\"event\":\"controller_step\",\"phase\":\"primary\",\"iteration\":3,\"ratio\":60," ++
    "\"step\":-4,\"bandwidth\":5.0,\"rule\":\"Regressing\"," ++
    "\"details\":\x7b\"a\":[1],\"b\":2.5\x7d\x7d"

/-- Both lines are accepted as the same entry. -/
theorem validateLine_eq_ok_iff_shuffled : ∃ e : LogEntry,
    validateLine ⟨7, LogEntry.shuffled⟩ = .ok e ∧
      LogEntry.ofText? LogEntry.shuffled = some e ∧ e.Conforms ∧ e.reals = [5.0, 2.5] ∧
      (∀ x ∈ e.reals, (Json.Number.real x).ReadsBack) ∧
      e.line = LogEntry.ordered ∧ validateLine ⟨1, LogEntry.ordered⟩ = .ok e := by
  have hfound : (Schema.checkMembers (canonicalMembers [] LogEntry.shuffledMembers)).toOption.map
      (fun e => (e.line, e.reals)) = some (LogEntry.ordered, [5.0, 2.5]) := by decide +kernel
  cases hchecked : Schema.checkMembers (canonicalMembers [] LogEntry.shuffledMembers) with
  | error faults =>
    rw [hchecked] at hfound
    cases hfound
  | ok e =>
    rw [hchecked] at hfound
    obtain ⟨hline, hlist⟩ := Prod.mk.inj (Option.some.inj hfound)
    have hok : validateLine ⟨7, LogEntry.shuffled⟩ = .ok e :=
      validateLine_of_check ((Schema.check_of_read? LogEntry.read?_shuffled).trans hchecked)
    have hone {x : Float} (hx : x.isFinite = true)
        (h : (Json.Number.real x).numeral.value? = some (.real x)) : (Json.Number.real x).ReadsBack :=
      (Json.readsBack_iff (n := .real x) hx).2 h
    have hreals : ∀ x ∈ e.reals, (Json.Number.real x).ReadsBack := by
      simp only [hlist, List.forall_mem_cons, List.not_mem_nil, false_implies, implies_true, and_true]
      exact ⟨hone (by decide +kernel) (by decide +kernel), hone (by decide +kernel) (by decide +kernel)⟩
    obtain ⟨haccepted, hagain⟩ := validateLine_eq_ok_iff ⟨7, LogEntry.shuffled⟩ e
    obtain ⟨htext, hconforms⟩ := haccepted.1 hok
    exact ⟨e, hok, htext, hconforms, hlist, hreals, hline, hline ▸ hagain hok hreals 1⟩

end Interleave
