import Interleave.Log.Schema
import Interleave.Proofs.Text.Lines

/-!
# Logs are checked line by line

What is wrong with a line is found in its text without the white space around it, and reported under the
number of the line (`reportLine_eq`). Neither depends on other lines, so a damaged line hides nothing and
displaces nothing: the report on a log is made of those on its lines, and the report on two logs in a row is
that on the first and then that on the second, further down by the lines of the first.

Results:
* `reportLine_eq`: the report on one line.
* `validateLog_eq`: a report says which lines are not blank, and what is wrong with each.
* `validateLines_later`: lines before a log change the numbers in its report and nothing else.
* `checks_compose`: the report on two logs in a row.
-/
namespace Interleave

/-! ## One line -/

/-- The same violation, further down by some lines. -/
def Violation.later (count : Nat) (v : Violation) : Violation := ⟨v.line + count, v.fault⟩

/-- The same report, further down by some lines. -/
def LogReport.later (count : Nat) (r : LogReport) : LogReport :=
  ⟨r.lines, r.violations.map (·.later count)⟩

/-- What is wrong with a line, given its text without the white space around it. -/
def Schema.lineFaults (trimmed : String) : List SchemaFault :=
  if trimmed = "" then []
  else
    match check trimmed with
    | .ok _ => []
    | .error faults => faults

theorem reportLine_eq (l : Text.NumberedLine) : reportLine l =
    ⟨if Text.isBlankText l.text then 0 else 1,
      (Schema.lineFaults (Text.trim l.text)).map (⟨l.number, ·⟩)⟩ := by
  unfold reportLine Schema.lineFaults
  by_cases hblank : Text.isBlankText l.text = true
  · rw [if_pos hblank, if_pos hblank, if_pos ((Text.trim_eq_empty_iff _).2 hblank)]
    rfl
  · rw [if_neg hblank, if_neg hblank, if_neg (mt (Text.trim_eq_empty_iff _).1 hblank), validateLine]
    cases Schema.check (Text.trim l.text) <;> rfl

/-! ## Lines in a row -/

theorem validateLines_eq (ls : List Text.NumberedLine) : validateLines ls =
    ⟨ls.countP (!Text.isBlankText ·.text),
      ls.flatMap fun l => (Schema.lineFaults (Text.trim l.text)).map (⟨l.number, ·⟩)⟩ := by
  induction ls with
  | nil => rfl
  | cons l ls ih =>
    rw [validateLines, ih, reportLine_eq, LogReport.append, List.countP_cons, List.flatMap_cons,
      Nat.add_comm]
    cases Text.isBlankText l.text <;> rfl

/-- Lines before a log change the numbers in its report and nothing else. -/
theorem validateLines_later (count : Nat) (ls : List Text.NumberedLine) :
    validateLines (ls.map (·.later count)) = (validateLines ls).later count := by
  rw [validateLines_eq, validateLines_eq, LogReport.later, List.countP_map, List.flatMap_map,
    List.map_flatMap]
  simp only [List.map_map]
  rfl

/-- A report says how many lines are not blank, and under the number of each what is wrong with its text. -/
theorem validateLog_eq (text : String) : validateLog text =
    ⟨(Text.lines text).countP (!Text.isBlankText ·),
      (Text.number 1 ((Text.lines text).map Text.trim)).flatMap fun l =>
        (Schema.lineFaults l.text).map (⟨l.number, ·⟩)⟩ := by
  rw [validateLog, validateLines_eq, Text.numberedLines, Text.number_map, List.flatMap_map,
    Text.countP_number 1 (!Text.isBlankText ·)]

/-- The report on a complete log and one behind it. -/
theorem validateLog_append (a b : String) : validateLog (a ++ "\n" ++ b) =
    (validateLog (a ++ "\n")).append ((validateLog b).later (Text.lines (a ++ "\n")).length) := by
  rw [validateLog, Text.numberedLines, Text.lines_append, Text.number_append, Text.number_later,
    validateLines_append, validateLines_later]
  rfl

/-- The report on two logs in a row, of which the first ends with a line feed: the lines of both, and the
violations of the first and then those of the second, whose lines are further down by all lines of the first,
blank ones too. A report counts the lines that hold something other than white space. The violations of
a line are those of its text without the white space around it, under the number of the line. -/
theorem checks_compose (a b : String) (h : a.toList.getLast? = some '\n') :
    validateLog (a ++ b) = (validateLog a).append ((validateLog b).later (Text.lines a).length) ∧
      (Text.lines a).length = a.toList.count '\n' ∧
      ∀ text,
        (validateLog text).lines =
          (Text.lines text).countP (fun line => line.toList.any (!Text.isBlank ·)) ∧
        (validateLog text).violations =
          (Text.number 1 ((Text.lines text).map Text.trim)).flatMap fun l =>
            (Schema.lineFaults l.text).map (⟨l.number, ·⟩) := by
  obtain ⟨cs, hcs⟩ := List.getLast?_eq_some_iff.1 h
  obtain rfl : a = String.ofList cs ++ "\n" := by
    rw [← String.toList_inj, hcs, String.toList_append, String.toList_ofList]
    rfl
  refine ⟨validateLog_append _ b, Text.length_lines _, ?_⟩
  intro text
  rw [validateLog_eq]
  refine ⟨?_, rfl⟩
  simp only [Text.isBlankText, List.not_all_eq_any_not]

/-- Two logs with blank lines, of which the first is damaged in its second line. What is wrong with the
lines behind it is found all the same, for the second log four lines further down. -/
theorem checks_compose_damaged :
    let a := "\n\x7b\r\n \t\n\x7b\x7d\n"
    let b := "[]\n\r\n  7"
    let missing := Schema.requiredFields.map (⟨4, .missing ·⟩)
    a.toList.getLast? = some '\n' ∧ (Text.lines a).length = 4 ∧
      validateLog a = ⟨2, ⟨2, .notJson⟩ :: missing⟩ ∧
      validateLog b = ⟨2, [⟨1, .notAnObject⟩, ⟨3, .notAnObject⟩]⟩ ∧
      validateLog (a ++ b) =
        ⟨4, ⟨2, .notJson⟩ :: missing ++ [⟨5, .notAnObject⟩, ⟨7, .notAnObject⟩]⟩ := by
  intro a b missing
  have hends : a.toList.getLast? = some '\n' := by decide +kernel
  have hlines : (Text.lines a).length = 4 := by decide +kernel
  have ha : validateLog a = ⟨2, ⟨2, .notJson⟩ :: missing⟩ := by decide +kernel
  have hb : validateLog b = ⟨2, [⟨1, .notAnObject⟩, ⟨3, .notAnObject⟩]⟩ := by decide +kernel
  have hboth := (checks_compose a b hends).1
  rw [ha, hb, hlines] at hboth
  exact ⟨hends, hlines, ha, hb, hboth⟩

end Interleave
