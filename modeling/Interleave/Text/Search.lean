import Interleave.Text.Digit
/-!
# Searching text

A pattern is a function that reads the head of a text. `first?` and `last?` find the first and the
last place where one matches, and `occurrences` all places, from the left and without overlap.

Results:
* `afterWord?_append`: a word is found in front of any text.
* `digitRun?_eq_some`: a run of digits is not empty, and no digit follows it.
-/
namespace Interleave.Text

variable {α : Type}

/-- The text after a word at its head. -/
def afterWord? : (word : List Char) → List Char → Option (List Char)
  | [], cs => some cs
  | w :: ws, c :: cs => if w = c then afterWord? ws cs else none
  | _ :: _, [] => none

/-- The digits at the head of a text, at least one, and the text after them. -/
def digitRun? (cs : List Char) : Option (List Char × List Char) :=
  match cs.takeWhile isDigit with
  | [] => none
  | d :: ds => some (d :: ds, cs.dropWhile isDigit)

/-- What a pattern gives at the first place where it matches. -/
def first? (pattern : List Char → Option α) : List Char → Option α
  | [] => pattern []
  | c :: cs =>
    match pattern (c :: cs) with
    | some x => some x
    | none => first? pattern cs

/-- What a pattern gives at the last place where it matches. -/
def last? (pattern : List Char → Option α) : List Char → Option α
  | [] => pattern []
  | c :: cs =>
    match last? pattern cs with
    | some x => some x
    | none => pattern (c :: cs)

/-- What a pattern gives at all places after the next `skip` characters, from the left; the search
goes on behind each match. The pattern also gives the text after the match. -/
def occurrencesFrom (pattern : List Char → Option (α × List Char)) :
    (skip : Nat) → List Char → List α
  | _, [] => []
  | skip + 1, _ :: cs => occurrencesFrom pattern skip cs
  | 0, c :: cs =>
    match pattern (c :: cs) with
    | some (x, rest) => x :: occurrencesFrom pattern (cs.length - rest.length) cs
    | none => occurrencesFrom pattern 0 cs

/-- What a pattern gives at all places, from the left and without overlap. -/
def occurrences (pattern : List Char → Option (α × List Char)) (cs : List Char) : List α :=
  occurrencesFrom pattern 0 cs

theorem afterWord?_append (word cs : List Char) : afterWord? word (word ++ cs) = some cs := by
  induction word with
  | nil => simp [afterWord?]
  | cons w ws ih => simp [afterWord?, ih]

theorem digitRun?_eq_some {cs ds rest : List Char} (h : digitRun? cs = some (ds, rest)) :
    ds ≠ [] ∧ cs = ds ++ rest ∧ (∀ d ∈ ds, isDigit d) ∧ ∀ c ∈ rest.head?, isDigit c = false := by
  unfold digitRun? at h
  split at h
  · cases h
  · rename_i d ds' hd
    simp only [Option.some.injEq, Prod.mk.injEq] at h
    obtain ⟨rfl, rfl⟩ := h
    refine ⟨by simp, ?_, fun c hc => ?_, fun c hc => ?_⟩
    · rw [← hd, List.takeWhile_append_dropWhile]
    · exact List.all_eq_true.1 (hd ▸ List.all_takeWhile) c hc
    · have := List.head?_dropWhile_not isDigit cs
      rw [Option.mem_def.1 hc] at this
      simpa using this

end Interleave.Text
