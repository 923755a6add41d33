import Interleave.Proofs.Text.Pattern
import Interleave.Telemetry.Latency
import Interleave.Telemetry.Node

/-!
# The patterns of telemetry

Each reader looks for one kind of reading on a line. The pattern of a reading says what it looks like, and
the reader finds what the pattern does.

Results:
* `match?_total`, `match?_labelled`, `match?_node`, `match?_latency`: at the head of a text, a reader
  matches where its pattern does, and takes what the groups keep.
* `find?_total`, `find?_node`, `findsAll_latency_iff`: so it does anywhere on a line.
* `isDigit_of_throughput`, `isDigit_of_labelled`, `isDigit_of_nodeReading`, `isDigit_of_latency`: the numbers
  of a reading are digits.
* `count?_eq_some_iff`: the digits of a count.
-/
namespace Interleave.Telemetry

open Text (Pattern Way afterWord? digitRun? isBlank isDigit)

/-- `Total <digits> MB/s`. -/
def totalPattern : Pattern :=
  .row [.word ['T', 'o', 't', 'a', 'l', ' '], .digits, .word [' ', 'M', 'B', '/', 's']]

/-- `<label>: <digits>` up to the end, with white space around the digits. It is looked for at the head of a
line only. -/
def labelledPattern : Pattern :=
  .row [.one (· ≠ ':'), .run (· ≠ ':'), .word [':'], .run isBlank, .digits, .run isBlank, .atEnd]

/-- `Node <digit>: <anything> Total <digits> MB/s`. -/
def nodePattern : Pattern :=
  .row [.word ['N', 'o', 'd', 'e', ' '], .group (.one isDigit), .word [':', ' '], .run (· ≠ '\n'),
    .word [' '], totalPattern]

/-- `local <digits> remote <digits>`. -/
def latencyPattern : Pattern :=
  .row [.word ['l', 'o', 'c', 'a', 'l', ' '], .digits,
    .word [' ', 'r', 'e', 'm', 'o', 't', 'e', ' '], .digits]

variable {cs : List Char} {c d : Char}

/-! ## Digits and white space -/

theorem isDigit_ne (hc : isDigit c) (hd : isDigit d = false) : d ≠ c := by
  intro h
  rw [h, hc] at hd
  cases hd

/-- No script has a digit among its white space. -/
theorem isDigit_eq_false_of_isBlank (h : isBlank c) : isDigit c = false := by
  have hapart : ∀ r ∈ Text.blankRanges, ∀ z ∈ Text.decimalZeros, z + 10 ≤ r.1 ∨ r.2 < z := by
    decide
  simp only [isBlank, Text.inRanges, List.any_eq_true, Bool.and_eq_true, decide_eq_true_eq] at h
  obtain ⟨r, hr, hle⟩ := h
  simp only [isDigit, List.any_eq_false, Bool.and_eq_true, decide_eq_true_eq]
  intro z hz
  have := hapart r hr z hz
  omega

theorem isBlank_eq_false_of_isDigit (h : isDigit c) : isBlank c = false := by
  cases hblank : isBlank c with
  | false => rfl
  | true =>
    rw [isDigit_eq_false_of_isBlank hblank] at h
    cases h

/-! ## Counts -/

/-- ASCII digits that write a number of 64 bits. Other digits match a pattern, but write no number. -/
structure IsCount (digits : List Char) (n : Nat) : Prop where
  ne_nil : digits ≠ []
  isDigit : ∀ d ∈ digits, d.isDigit
  value : Decimal.ofDigits digits = n
  le : n ≤ maxCount

theorem nat?_of_not_mem {digits : List Char} (h : '+' ∉ digits) :
    Literal.nat? digits = Literal.digits? digits := by
  unfold Literal.nat?
  split
  · exact absurd List.mem_cons_self h
  · rfl

theorem count?_eq_some_iff {digits : List Char} {n : Nat} (h : ∀ d ∈ digits, isDigit d) :
    count? digits = some n ↔ IsCount digits n := by
  have hplus : '+' ∉ digits := fun hmem => absurd (h '+' hmem) (by decide)
  rw [count?, Literal.natUpTo?, String.toList_ofList, nat?_of_not_mem hplus, Literal.digits?]
  constructor
  · intro hcount
    obtain ⟨hdigits, hle⟩ := Option.filter_eq_some_iff.1 hcount
    obtain ⟨⟨hne, hall⟩, hvalue⟩ := Option.ite_none_right_eq_some.1 hdigits
    exact ⟨hne, List.all_eq_true.1 hall, Option.some_inj.1 hvalue, by simpa using hle⟩
  · intro hcount
    rw [if_pos ⟨hcount.ne_nil, List.all_eq_true.2 hcount.isDigit⟩, hcount.value]
    simp [hcount.le]

/-! ## Totals -/

theorem match?_total :
    totalPattern.match? cs = (throughput? cs).map fun found => ⟨[found.1], found.2⟩ := by
  have hend (c : Char) (cs : List Char) (hc : isDigit c) :
      (Pattern.row [.word [' ', 'M', 'B', '/', 's']]).match? (c :: cs) = none := by
    rw [Pattern.match?_row_word, afterWord?, if_neg (isDigit_ne hc (by decide))]
    rfl
  simp only [totalPattern, Pattern.row_cons, Pattern.match?_word, throughput?, Option.bind_eq_bind,
    Option.map_bind]
  refine Option.bind_congr fun rest _ => ?_
  simp [Pattern.match?_digits hend, Pattern.match?_row_word, Option.map_eq_bind,
    Option.bind_assoc]

theorem isDigit_of_throughput {digits rest : List Char} (h : throughput? cs = some (digits, rest)) :
    ∀ d ∈ digits, isDigit d := by
  simp only [throughput?, Option.bind_eq_bind, Option.bind_eq_some_iff] at h
  obtain ⟨_, _, run, hrun, _, _, heq⟩ := h
  cases heq
  exact (Text.digitRun?_eq_some hrun).2.2.1

/-- The leftmost total of a line. -/
theorem find?_total :
    totalPattern.find? cs = (Text.first? throughput? cs).map fun found => ⟨[found.1], found.2⟩ := by
  rw [← Text.first?_map]
  exact Text.first?_congr fun rest _ => match?_total

/-- Behind the digits of a label there may be white space only. -/
theorem match?_labelled_end :
    (Pattern.row [.run isBlank, .atEnd]).match? cs =
      if Text.dropBlank cs = [] then some ⟨[], []⟩ else none := by
  have hend (cs : List Char) :
      (Pattern.row [.atEnd]).match? cs = if cs = [] then some ⟨[], []⟩ else none := by
    rw [Pattern.match?_row_one, Pattern.match?, Pattern.ways]
    split <;> rfl
  rw [Pattern.row_cons, Pattern.match?_run, hend, Text.dropBlank]
  intro c cs _
  rw [hend, if_neg (List.cons_ne_nil c cs)]

theorem match?_labelled :
    labelledPattern.match? cs = (labelled? cs).map fun digits => ⟨[digits], []⟩ := by
  have hdigits (c : Char) (cs : List Char) (hc : isDigit c) :
      (Pattern.row [.run isBlank, .atEnd]).match? (c :: cs) = none := by
    rw [match?_labelled_end, Text.dropBlank,
      List.dropWhile_cons_of_neg (by simp [isBlank_eq_false_of_isDigit hc])]
    rfl
  have hblank (c : Char) (cs : List Char) (hc : isBlank c) :
      (Pattern.row [.digits, .run isBlank, .atEnd]).match? (c :: cs) = none := by
    rw [Pattern.row_cons, Pattern.match?_digits hdigits, digitRun?,
      List.takeWhile_cons_of_neg (by simp [isDigit_eq_false_of_isBlank hc])]
    rfl
  have hcolon (c : Char) (cs : List Char) (hc : decide (c ≠ ':')) :
      (Pattern.row [.word [':'], .run isBlank, .digits, .run isBlank, .atEnd]).match? (c :: cs) = none :=
    Pattern.match?_word_of_ne (Ne.symm (of_decide_eq_true hc))
  cases cs with
  | nil => rfl
  | cons c cs =>
    rw [labelledPattern, Pattern.row_cons, Pattern.match?_one, Pattern.row_cons, Pattern.match?_run hcolon,
      labelled?]
    by_cases hc : c = ':'
    · simp [hc]
    · rw [if_pos (by simpa using hc), List.takeWhile_cons_of_pos (by simpa using hc),
        List.dropWhile_cons_of_pos (by simpa using hc)]
      cases cs.dropWhile (· ≠ ':') with
      | nil => rfl
      | cons d rest =>
        by_cases hd : d = ':'
        · rw [hd, Pattern.row_cons, Pattern.match?_word]
          change (Pattern.row [.run isBlank, .digits, .run isBlank, .atEnd]).match? rest = _
          rw [Pattern.row_cons, Pattern.match?_run hblank, Pattern.row_cons, Pattern.match?_digits hdigits]
          simp only [match?_labelled_end]
          change _ = Option.map _ (Option.bind (digitRun? (Text.dropBlank rest)) _)
          rw [Text.dropBlank, Option.map_bind]
          refine Option.bind_congr fun run _ => ?_
          by_cases hend : Text.dropBlank run.2 = [] <;> simp [hend]
        · rw [hcolon d rest (by simpa using hd)]
          simp [hd]

theorem isDigit_of_labelled {digits : List Char} (h : labelled? cs = some digits) :
    ∀ d ∈ digits, isDigit d := by
  unfold labelled? at h
  split at h
  · simp only [Option.bind_eq_bind, Option.bind_eq_some_iff] at h
    obtain ⟨run, hrun, heq⟩ := h
    obtain ⟨-, heq⟩ := Option.ite_none_right_eq_some.1 heq
    cases heq
    exact (Text.digitRun?_eq_some hrun).2.2.1
  · cases h

/-! ## Nodes -/

theorem isDigit_of_nodeReading {r : NodeReading} (h : nodeReading? cs = some r) :
    ∀ d ∈ r.digits, isDigit d := by
  unfold nodeReading? at h
  split at h
  · obtain ⟨-, hlast⟩ := Option.ite_none_right_eq_some.1 h
    obtain ⟨digits, htotal, rfl⟩ := Option.map_eq_some_iff.1 hlast
    obtain ⟨here, hhere⟩ := Text.exists_of_last? htotal
    obtain ⟨rest, -, hdigits⟩ := Option.bind_eq_some_iff.1 hhere
    obtain ⟨⟨_, rest'⟩, hfound, heq⟩ := Option.bind_eq_some_iff.1 hdigits
    cases heq
    exact isDigit_of_throughput hfound
  · cases h

/-- The last total of a line is taken, as anything may stand before it. -/
theorem match?_node_total (h : '\n' ∉ cs) :
    ((Pattern.row [.run (· ≠ '\n'), .word [' '], totalPattern]).match? cs).map (·.groups) =
      (Text.last? nodeTotal? cs).map ([·]) := by
  have htotal (cs : List Char) :
      ((Pattern.row [.word [' '], totalPattern]).match? cs).map (·.groups) = (nodeTotal? cs).map ([·]) := by
    rw [Pattern.row_cons, Pattern.match?_word, nodeTotal?]
    cases hspace : afterWord? [' '] cs with
    | none => rfl
    | some rest =>
      simp [Pattern.match?_row_one, match?_total, Option.map_eq_bind, Option.bind_assoc]
  have hall : ∀ c ∈ cs, decide (c ≠ '\n') = true := by
    intro c hc
    rw [decide_eq_true_iff]
    intro heq
    exact h (heq ▸ hc)
  rw [Pattern.row_cons, Pattern.match?_run_of_all hall, ← Text.last?_map, ← Text.last?_map]
  simp only [htotal]

theorem match?_node (h : '\n' ∉ cs) :
    (nodePattern.match? cs).map (·.groups) = (nodeReading? cs).map fun r => [[r.node], r.digits] := by
  rw [nodePattern, Pattern.row_cons, Pattern.match?_word, nodeReading?]
  cases hword : afterWord? ['N', 'o', 'd', 'e', ' '] cs with
  | none => rfl
  | some behind =>
    rw [Text.afterWord?_eq_some_iff] at hword
    rw [Option.bind_some]
    cases behind with
    | nil => rfl
    | cons node behind =>
      rw [Pattern.row_cons, Pattern.match?_group_one, Pattern.row_cons, Pattern.match?_word]
      cases hcolon : afterWord? [':', ' '] behind with
      | none =>
        have hnone : ∀ rest, behind ≠ ':' :: ' ' :: rest := by
          intro rest heq
          rw [heq] at hcolon
          cases hcolon
        simp [hnone]
      | some rest =>
        rw [Text.afterWord?_eq_some_iff] at hcolon
        have hrest : '\n' ∉ rest := by
          rw [hword, hcolon] at h
          simp_all
        have htotal := match?_node_total hrest
        subst hcolon
        by_cases hnode : isDigit node
        · have hgroups := congrArg (Option.map ([node] :: ·)) htotal
          simpa [hnode, Function.comp_def] using hgroups
        · simp [hnode]

/-- The leftmost reading of a line. -/
theorem find?_node (h : '\n' ∉ cs) :
    (nodePattern.find? cs).map (·.groups) =
      (Text.first? nodeReading? cs).map fun r => [[r.node], r.digits] := by
  rw [Pattern.find?, ← Text.first?_map, ← Text.first?_map]
  exact Text.first?_congr fun rest hrest => match?_node fun hmem => h (hrest.subset hmem)

/-! ## Latencies -/

theorem match?_latency :
    latencyPattern.match? cs = (latency? cs).map fun found => ⟨[found.1.1, found.1.2], found.2⟩ := by
  have hend (c : Char) (cs : List Char) (hc : isDigit c) :
      (Pattern.row [.word [' ', 'r', 'e', 'm', 'o', 't', 'e', ' '], .digits]).match? (c :: cs) = none :=
    Pattern.match?_word_of_ne (isDigit_ne hc (by decide))
  simp only [latencyPattern, Pattern.row_cons, latency?, Pattern.match?_word, Option.bind_eq_bind,
    Option.map_bind]
  refine Option.bind_congr fun rest _ => ?_
  simp only [Pattern.row_cons] at hend
  simp only [Pattern.match?_digits hend, Pattern.match?_word, Option.map_bind, Function.comp_def,
    Option.pure_def, Option.map_some]
  refine Option.bind_congr fun run _ => Option.bind_congr fun rest _ => ?_
  simp [Pattern.match?_row_digits, Option.map_eq_bind, Option.bind_assoc]

theorem isDigit_of_latency {near far rest : List Char} (h : latency? cs = some ((near, far), rest)) :
    (∀ d ∈ near, isDigit d) ∧ ∀ d ∈ far, isDigit d := by
  simp only [latency?, Option.bind_eq_bind, Option.bind_eq_some_iff] at h
  obtain ⟨_, _, ⟨near', _⟩, hnear, _, _, ⟨far', _⟩, hfar, heq⟩ := h
  cases heq
  exact ⟨(Text.digitRun?_eq_some hnear).2.2.1, (Text.digitRun?_eq_some hfar).2.2.1⟩

theorem consumes_latency : latencyPattern.Consumes := by
  intro cs w h
  rw [match?_latency] at h
  obtain ⟨found, hfound, rfl⟩ := Option.map_eq_some_iff.1 h
  simp only [latency?, Option.bind_eq_bind, Option.bind_eq_some_iff] at hfound
  obtain ⟨behind, hlocal, ⟨near, rest⟩, hnear, rest', hremote, ⟨far, rest''⟩, hfar, heq⟩ := hfound
  cases heq
  rw [Text.afterWord?_eq_some_iff] at hlocal hremote
  dsimp only at hremote hfar
  obtain ⟨-, hnear, -⟩ := Text.digitRun?_eq_some hnear
  obtain ⟨-, hfar, -⟩ := Text.digitRun?_eq_some hfar
  exact ⟨['l', 'o', 'c', 'a', 'l', ' '] ++ near ++ [' ', 'r', 'e', 'm', 'o', 't', 'e', ' '] ++ far,
    by simp, by simp [hlocal, hnear, hremote, hfar]⟩

/-- All latencies of a line. -/
theorem findsAll_latency_iff {found : List (List (List Char))} :
    latencyPattern.FindsAll cs found ↔
      found = (Text.occurrences latency? cs).map fun digits => [digits.1, digits.2] := by
  have hall := Pattern.findsAll_occurrences consumes_latency cs
  simp only [match?_latency, Option.map_map, Function.comp_def] at hall
  rw [Text.occurrences, Text.occurrencesFrom_map fun digits : List Char × List Char => [digits.1, digits.2]]
    at hall
  exact ⟨fun h => h.unique hall, fun h => h ▸ hall⟩

end Interleave.Telemetry
