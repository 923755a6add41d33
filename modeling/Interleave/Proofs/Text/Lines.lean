import Interleave.Text.Lines

/-!
# Numbered lines

The number of a line is its place in the text, counted from the number of the first. Other lines before it
change the number and nothing else.

Results:
* `not_mem_of_mem_lines`: no line holds a line feed.
* `length_lines`: complete lines are counted by their line feeds.
* `mem_number_iff`: a numbered line stands at the place of its number.
* `number_later`: lines further down have later numbers.
* `all_or_first`: the first bad line.
-/
namespace Interleave.Text

/-- The same line, further down by some lines. -/
def NumberedLine.later (count : Nat) (l : NumberedLine) : NumberedLine := ⟨l.number + count, l.text⟩

theorem mem_of_mem_endLine {c : Char} {cs : List Char} (h : c ∈ endLine cs) : c ∈ cs := by
  unfold endLine at h
  split at h
  · exact List.mem_cons_of_mem _ (List.mem_reverse.1 h)
  · exact List.mem_reverse.1 h

theorem not_mem_of_mem_linesFrom {current cs line : List Char} (hcurrent : '\n' ∉ current)
    (h : line ∈ linesFrom current cs) : '\n' ∉ line := by
  induction cs generalizing current with
  | nil =>
    simp only [linesFrom] at h
    split at h
    · cases h
    · rw [List.mem_singleton.1 h]
      simpa using hcurrent
  | cons c cs ih =>
    by_cases hc : c = '\n'
    · rw [hc, linesFrom, List.mem_cons] at h
      rcases h with rfl | h
      · exact fun hmem => hcurrent (mem_of_mem_endLine hmem)
      · exact ih List.not_mem_nil h
    · rw [linesFrom] at h
      · exact ih (by simp [hcurrent, Ne.symm hc]) h
      · exact hc

theorem not_mem_of_mem_lines {text line : String} (h : line ∈ lines text) : '\n' ∉ line.toList := by
  obtain ⟨cs, hcs, rfl⟩ := List.mem_map.1 h
  rw [String.toList_ofList]
  exact not_mem_of_mem_linesFrom List.not_mem_nil hcs

theorem length_linesFrom (current cs : List Char) :
    (linesFrom current (cs ++ ['\n'])).length = (cs ++ ['\n']).count '\n' := by
  induction cs generalizing current with
  | nil => rfl
  | cons c cs ih =>
    by_cases hc : c = '\n'
    · rw [hc, List.cons_append, linesFrom, List.length_cons, ih, List.count_cons_self]
    · rw [List.cons_append, linesFrom, ih, List.count_cons_of_ne hc]
      exact hc

/-- A text that ends with a line feed has as many lines as line feeds. -/
theorem length_lines (text : String) :
    (lines (text ++ "\n")).length = (text ++ "\n").toList.count '\n' := by
  rw [lines, List.length_map, String.toList_append]
  exact length_linesFrom [] text.toList

theorem number_later (count first : Nat) (ls : List String) :
    number (first + count) ls = (number first ls).map (·.later count) := by
  induction ls generalizing first with
  | nil => rfl
  | cons l ls ih =>
    rw [number, number, List.map_cons, ← ih, Nat.add_right_comm]
    rfl

theorem map_text_number (first : Nat) (ls : List String) : (number first ls).map (·.text) = ls := by
  induction ls generalizing first with
  | nil => rfl
  | cons l ls ih => rw [number, List.map_cons, ih]

theorem length_number (first : Nat) (ls : List String) : (number first ls).length = ls.length := by
  rw [← List.length_map (·.text), map_text_number]

theorem countP_number (first : Nat) (p : String → Bool) (ls : List String) :
    (number first ls).countP (p ·.text) = ls.countP p := by
  induction ls generalizing first with
  | nil => rfl
  | cons l ls ih => rw [number, List.countP_cons, List.countP_cons, ih]

theorem number_map (first : Nat) (f : String → String) (ls : List String) :
    number first (ls.map f) = (number first ls).map fun l => ⟨l.number, f l.text⟩ := by
  induction ls generalizing first with
  | nil => rfl
  | cons l ls ih => rw [List.map_cons, number, number, ih, List.map_cons]

theorem mem_number_iff {first : Nat} {ls : List String} {l : NumberedLine} :
    l ∈ number first ls ↔ ∃ i, ls[i]? = some l.text ∧ l.number = first + i := by
  induction ls generalizing first with
  | nil => simp [number]
  | cons text ls ih =>
    rw [number, List.mem_cons, ih]
    constructor
    · rintro (rfl | ⟨i, htext, hnumber⟩)
      · exact ⟨0, by simp⟩
      · exact ⟨i + 1, by simpa using htext, by omega⟩
    · rintro ⟨i, htext, hnumber⟩
      cases i with
      | zero =>
        left
        cases l
        simp_all
      | succ i => exact .inr ⟨i, by simpa using htext, by omega⟩

/-- Of the lines of a text, the one with number `n` is the `n`-th, counted from 1. -/
theorem mem_numberedLines_iff {text : String} {l : NumberedLine} :
    l ∈ numberedLines text ↔ 1 ≤ l.number ∧ (lines text)[l.number - 1]? = some l.text := by
  rw [numberedLines, mem_number_iff]
  constructor
  · intro ⟨i, htext, hnumber⟩
    rw [hnumber]
    exact ⟨by omega, by simpa using htext⟩
  · intro ⟨hpos, htext⟩
    exact ⟨l.number - 1, htext, by omega⟩

/-- Lines are all good, or have a first bad one. -/
theorem all_or_first (bad : String → Prop) [DecidablePred bad] (ls : List String) :
    (∀ l ∈ ls, ¬bad l) ∨
      ∃ before l after, ls = before ++ l :: after ∧ (∀ line ∈ before, ¬bad line) ∧ bad l := by
  cases hfind : ls.find? (bad ·) with
  | none =>
    left
    simpa using hfind
  | some l =>
    obtain ⟨hl, before, after, hsplit, hbefore⟩ := List.find?_eq_some_iff_append.1 hfind
    right
    exact ⟨before, l, after, hsplit, by simpa using hbefore, by simpa using hl⟩

end Interleave.Text
