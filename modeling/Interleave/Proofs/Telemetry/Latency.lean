import Interleave.Proofs.Fallible
import Interleave.Proofs.Telemetry.Patterns
import Interleave.Proofs.Text.Lines
import Mathlib.Data.List.Forall2

/-!
# Latency streams are read strictly

A stream reads if every line that is not blank has one latency and no more (`SaysLatency`), and then each of
them gives one sample. Otherwise the first line that has not is reported, whatever stands behind it.

Results:
* `readLatencyLines_eq_ok_iff`, `readLatencyLines_eq_error_iff`: when lines read, and which of them is at
  fault.
* `latencies_read_strictly`: the same for texts, and for texts in a row.
-/
namespace Interleave.Telemetry

open Text (NumberedLine isBlankText number)

variable {line : NumberedLine} {lines : List String} {first : Nat} {sample : LatencySample}
  {samples : List LatencySample} {fault : ControlFault}

/-! ## A line -/

/-- The line has exactly one latency, and its numbers are the sample. -/
def SaysLatency (text : String) (s : LatencySample) : Prop :=
  ∃ near far, latencyPattern.FindsAll text.toList [[near, far]] ∧ IsCount near s.near ∧ IsCount far s.far

theorem findsAll_one_iff {cs near far : List Char} :
    latencyPattern.FindsAll cs [[near, far]] ↔ Text.occurrences latency? cs = [(near, far)] := by
  rw [findsAll_latency_iff]
  constructor
  · intro h
    obtain ⟨⟨near', far'⟩, hone, hgroups⟩ := List.map_eq_singleton_iff.1 h.symm
    cases hgroups
    exact hone
  · intro h
    rw [h]
    rfl

theorem lineLatency?_eq_some_iff : lineLatency? line = some sample ↔ SaysLatency line.text sample := by
  simp only [SaysLatency, findsAll_one_iff]
  unfold lineLatency?
  split
  · rename_i near far hone
    obtain ⟨here, rest, hhere⟩ :=
      Text.exists_of_mem_occurrencesFrom (hone ▸ List.mem_singleton_self (near, far))
    obtain ⟨hnear, hfar⟩ := isDigit_of_latency hhere
    simp only [Option.bind_eq_bind, Option.bind_eq_some_iff, count?_eq_some_iff hnear,
      count?_eq_some_iff hfar]
    constructor
    · rintro ⟨x, hx, y, hy, hsample⟩
      cases hsample
      exact ⟨near, far, hone, hx, hy⟩
    · rintro ⟨near', far', hone', hx, hy⟩
      cases hone.symm.trans hone'
      exact ⟨sample.near, hx, sample.far, hy, rfl⟩
  · rename_i hmany
    constructor
    · intro h
      cases h
    · rintro ⟨near, far, hone, -⟩
      exact absurd hone (hmany near far)

theorem lineLatency?_eq_none_iff : lineLatency? line = none ↔ ∀ s, ¬SaysLatency line.text s := by
  simp only [Option.eq_none_iff_forall_ne_some, Ne, lineLatency?_eq_some_iff]

/-- The line is not blank, and does not have exactly one latency. -/
def Unreadable (text : String) : Prop := isBlankText text = false ∧ ∀ s, ¬SaysLatency text s

/-! ## Lines -/

/-- Lines read if each of them that is not blank says one latency, and these are the samples in order. -/
theorem readLatencyLines_eq_ok_iff : readLatencyLines (number first lines) = .ok samples ↔
    List.Forall₂ SaysLatency (lines.filter (!isBlankText ·)) samples := by
  induction lines generalizing first samples with
  | nil => cases samples <;> simp [number, readLatencyLines]
  | cons l lines ih =>
    rw [number, readLatencyLines, isBlankLine]
    by_cases hl : isBlankText l
    · simp [hl, ih]
    · rw [if_neg hl, List.filter_cons_of_pos (by simpa using hl)]
      cases hline : lineLatency? ⟨first, l⟩ with
      | none =>
        have hnone := lineLatency?_eq_none_iff.1 hline
        constructor
        · intro h
          cases h
        · intro h
          cases h with
          | cons hsays => exact absurd hsays (hnone _)
      | some s =>
        have hsome := lineLatency?_eq_some_iff.1 hline
        constructor
        · intro h
          obtain ⟨rest, hrest, rfl⟩ := Fallible.map_eq_ok.1 h
          exact .cons hsome (ih.1 hrest)
        · intro h
          cases h with
          | cons hsays hrest =>
            rw [lineLatency?_eq_some_iff.2 hsays] at hline
            cases hline
            exact Fallible.map_eq_ok.2 ⟨_, ih.2 hrest, rfl⟩

theorem exists_says_of_mem {l : String} (h : List.Forall₂ SaysLatency lines samples) (hl : l ∈ lines) :
    ∃ s, SaysLatency l s := by
  induction h with
  | nil => cases hl
  | cons hsays _ ih =>
    rcases List.mem_cons.1 hl with rfl | hl
    · exact ⟨_, hsays⟩
    · exact ih hl

theorem exists_says_of_not_unreadable (h : ∀ l ∈ lines, ¬Unreadable l) :
    ∃ samples, List.Forall₂ SaysLatency (lines.filter (!isBlankText ·)) samples := by
  induction lines with
  | nil => exact ⟨[], .nil⟩
  | cons l lines ih =>
    rw [List.forall_mem_cons] at h
    obtain ⟨samples, hsamples⟩ := ih h.2
    by_cases hl : isBlankText l
    · exact ⟨samples, by simpa [hl] using hsamples⟩
    · have hsays : ∃ s, SaysLatency l s := by
        by_contra hnone
        exact h.1 ⟨by simpa using hl, not_exists.1 hnone⟩
      obtain ⟨s, hs⟩ := hsays
      rw [List.filter_cons_of_pos (by simpa using hl)]
      exact ⟨s :: samples, .cons hs hsamples⟩

/-- The first unreadable line is the fault of all, whatever stands behind it. -/
theorem readLatencyLines_of_unreadable {before after : List String} {line : String}
    (hbefore : ∀ l ∈ before, ¬Unreadable l) (h : Unreadable line) :
    readLatencyLines (number first (before ++ line :: after)) =
      .error (.malformedRecord (first + before.length) line) := by
  obtain ⟨samples, hsamples⟩ := exists_says_of_not_unreadable hbefore
  have hok : readLatencyLines (number first before) = .ok samples :=
    readLatencyLines_eq_ok_iff.2 hsamples
  have hnone : lineLatency? ⟨first + before.length, line⟩ = none := lineLatency?_eq_none_iff.2 h.2
  rw [Text.number_append, readLatencyLines_append, hok, number, readLatencyLines, isBlankLine,
    if_neg (by simp [h.1]), hnone]
  rfl

theorem readLatencyLines_eq_error_iff : readLatencyLines (number first lines) = .error fault ↔
    ∃ before line after, lines = before ++ line :: after ∧ (∀ l ∈ before, ¬Unreadable l) ∧
      Unreadable line ∧ fault = .malformedRecord (first + before.length) line := by
  classical
  constructor
  · intro h
    rcases Text.all_or_first Unreadable lines with hall | ⟨before, line, after, rfl, hbefore, hline⟩
    · obtain ⟨samples, hsamples⟩ := exists_says_of_not_unreadable hall
      rw [readLatencyLines_eq_ok_iff.2 hsamples] at h
      cases h
    · rw [readLatencyLines_of_unreadable hbefore hline] at h
      cases h
      exact ⟨before, line, after, rfl, hbefore, hline, rfl⟩
  · rintro ⟨before, line, after, rfl, hbefore, hline, rfl⟩
    exact readLatencyLines_of_unreadable hbefore hline

/-- Where lines stand does not matter for whether they read. -/
theorem readLatencyLines_number (other : Nat) :
    readLatencyLines (number first lines) = .ok samples ↔
      readLatencyLines (number other lines) = .ok samples := by
  rw [readLatencyLines_eq_ok_iff, readLatencyLines_eq_ok_iff]

/-! ## Texts -/

theorem readLatency_append {text rest : String} : readLatency (text ++ "\n" ++ rest) = .ok samples ↔
    ∃ a b, readLatency (text ++ "\n") = .ok a ∧ readLatency rest = .ok b ∧ samples = a ++ b := by
  have hsplit : readLatency (text ++ "\n" ++ rest) =
      (readLatency (text ++ "\n")).bind fun a =>
        (readLatencyLines (number (1 + (Text.lines (text ++ "\n")).length) (Text.lines rest))).map
          (a ++ ·) := by
    rw [readLatency, Text.numberedLines, Text.lines_append, Text.number_append, readLatencyLines_append]
    rfl
  rw [hsplit]
  cases readLatency (text ++ "\n") with
  | error fault => simp [Except.bind]
  | ok a =>
    change Except.map _ _ = _ ↔ _
    simp only [Fallible.map_eq_ok, readLatencyLines_number 1]
    constructor
    · rintro ⟨b, hb, rfl⟩
      exact ⟨a, b, rfl, hb, rfl⟩
    · rintro ⟨a', b, ha, hb, rfl⟩
      cases ha
      exact ⟨b, hb, rfl⟩

/-- A text reads if every line that is not blank says exactly one latency, and gives these in order. If not,
the first line without one is at fault. A text that ends with a line reads on its own, whatever follows. -/
theorem latencies_read_strictly (text : String) :
    (∀ samples, readLatency text = .ok samples ↔
      List.Forall₂ SaysLatency ((Text.lines text).filter (!isBlankText ·)) samples) ∧
    ((∃ samples, readLatency text = .ok samples) ↔
      ∀ line ∈ Text.lines text, isBlankText line = false → ∃ s, SaysLatency line s) ∧
    (∀ fault, readLatency text = .error fault ↔
      ∃ before line after, Text.lines text = before ++ line :: after ∧
        (∀ l ∈ before, ¬Unreadable l) ∧ Unreadable line ∧
        fault = .malformedRecord (before.length + 1) line) ∧
    ∀ rest samples, readLatency (text ++ "\n" ++ rest) = .ok samples ↔
      ∃ a b, readLatency (text ++ "\n") = .ok a ∧ readLatency rest = .ok b ∧ samples = a ++ b := by
  refine ⟨fun samples => readLatencyLines_eq_ok_iff, ?_, ?_, fun rest samples => readLatency_append⟩
  · constructor
    · rintro ⟨samples, hread⟩ line hline hfilled
      have hmem : line ∈ (Text.lines text).filter (!isBlankText ·) :=
        List.mem_filter.2 ⟨hline, by simp [hfilled]⟩
      exact exists_says_of_mem (readLatencyLines_eq_ok_iff.1 hread) hmem
    · intro hall
      have hreadable : ∀ line ∈ Text.lines text, ¬Unreadable line := by
        intro line hline hbad
        obtain ⟨s, hs⟩ := hall line hline hbad.1
        exact hbad.2 s hs
      obtain ⟨samples, hsamples⟩ := exists_says_of_not_unreadable hreadable
      exact ⟨samples, readLatencyLines_eq_ok_iff.2 hsamples⟩
  · intro fault
    simp only [readLatency, Text.numberedLines, readLatencyLines_eq_error_iff, Nat.add_comm 1]

end Interleave.Telemetry
