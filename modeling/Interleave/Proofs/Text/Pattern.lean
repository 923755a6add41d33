import Interleave.Text.Search

/-!
# Patterns

A pattern is a row of words, single characters of a class and runs of a class, and groups keep what
they match. The ways to match at the head of a text are listed in the order in which they are tried: a run
takes all it can, and gives back one character after the other. A pattern finds the first way at the
leftmost place that has one, and looks for more behind what it has found.

Results:
* `match?_word`, `match?_run`, `match?_run_of_all`, `match?_digits`: a row matches from left to right. A
  run gives nothing back if what follows it cannot begin inside the run.
* `find?_eq_some_iff`: the leftmost match is what `first?` gives.
* `findsAll_occurrences`: all matches are what `occurrences` gives.
-/
namespace Interleave.Text

theorem afterWord?_eq_some_iff {word cs rest : List Char} :
    afterWord? word cs = some rest ↔ cs = word ++ rest := by
  induction word generalizing cs with
  | nil => simp [afterWord?]
  | cons c word ih =>
    cases cs with
    | nil => simp [afterWord?]
    | cons d cs =>
      rw [afterWord?, List.cons_append, List.cons_eq_cons]
      split
      · rename_i heq
        simp [ih, heq]
      · rename_i hne
        simp [Ne.symm hne]

/-- Digits are a run up to a character that is none. -/
theorem digitRun?_append {ds cs : List Char} {c : Char} (hne : ds ≠ []) (hds : ∀ d ∈ ds, isDigit d)
    (hc : isDigit c = false) : digitRun? (ds ++ c :: cs) = some (ds, c :: cs) := by
  rw [digitRun?, List.takeWhile_append_of_pos hds, List.dropWhile_append_of_pos hds,
    List.takeWhile_cons_of_neg (by simp [hc]), List.dropWhile_cons_of_neg (by simp [hc]), List.append_nil]
  cases ds with
  | nil => exact absurd rfl hne
  | cons d ds => rfl

/-- What can be looked for in a text. -/
inductive Pattern where
  /-- These characters. -/
  | word (cs : List Char)
  /-- One character of a class. -/
  | one (accepts : Char → Bool)
  /-- Any number of characters of a class, and as many as possible. -/
  | run (accepts : Char → Bool)
  /-- The end of the text. -/
  | atEnd
  /-- A part that is kept. -/
  | group (p : Pattern)
  /-- One pattern and behind it another. -/
  | seq (p q : Pattern)

/-- A way to match: what the groups keep, and the text behind the match. -/
structure Way where
  groups : List (List Char)
  rest : List Char
  deriving DecidableEq, Repr

/-- One way, and behind it another. -/
def Way.andThen (w v : Way) : Way := ⟨w.groups ++ v.groups, v.rest⟩

/-- A way that keeps nothing only moves on. -/
@[simp]
theorem Way.andThen_of_nil (rest : List Char) : Way.andThen ⟨[], rest⟩ = id := by
  funext v
  simp [andThen]

/-- What may be left of a text behind a run, after the longest run first. -/
def afterRun (accepts : Char → Bool) : List Char → List (List Char)
  | [] => [[]]
  | c :: cs => if accepts c then afterRun accepts cs ++ [c :: cs] else [c :: cs]

namespace Pattern

/-- Patterns in a row. -/
def row (ps : List Pattern) : Pattern := ps.foldr seq (word [])

/-- One or more digits that are kept. -/
def digits : Pattern := group (seq (one isDigit) (run isDigit))

/-- The ways to match at the head of a text, in the order in which they are tried. -/
def ways : Pattern → List Char → List Way
  | word w, cs => (afterWord? w cs).toList.map (⟨[], ·⟩)
  | one accepts, c :: cs => if accepts c then [⟨[], cs⟩] else []
  | one _, [] => []
  | run accepts, cs => (afterRun accepts cs).map (⟨[], ·⟩)
  | atEnd, cs => if cs = [] then [⟨[], []⟩] else []
  | group p, cs => (p.ways cs).map fun w => ⟨cs.take (cs.length - w.rest.length) :: w.groups, w.rest⟩
  | seq p q, cs => (p.ways cs).flatMap fun w => (q.ways w.rest).map w.andThen

/-- The way that a pattern matches at the head of a text. -/
def match? (p : Pattern) (cs : List Char) : Option Way := (p.ways cs).head?

/-- The leftmost match in a text: what begins at an earlier place of it is longer. -/
def Finds (p : Pattern) (cs : List Char) (w : Way) : Prop :=
  ∃ here, here <:+ cs ∧ p.match? here = some w ∧
    ∀ earlier, earlier <:+ cs → here.length < earlier.length → p.match? earlier = none

/-- What the groups of all matches keep, from the left and without overlap. -/
inductive FindsAll (p : Pattern) : List Char → List (List (List Char)) → Prop
  | none {cs : List Char} : (∀ w, ¬p.Finds cs w) → FindsAll p cs []
  | next {cs : List Char} {w : Way} {found : List (List (List Char))} :
    p.Finds cs w → FindsAll p w.rest found → FindsAll p cs (w.groups :: found)

/-- The leftmost match in a text, or none. -/
def find? (p : Pattern) (cs : List Char) : Option Way := first? p.match? cs

/-! ## Rows -/

variable {p q : Pattern} {cs rest : List Char} {w : Way}

theorem row_cons (p q : Pattern) (ps : List Pattern) : row (p :: q :: ps) = seq p (row (q :: ps)) := rfl

theorem match?_row_one : (row [p]).match? cs = p.match? cs := by
  simp [match?, row, ways, afterWord?, Way.andThen]

theorem match?_seq :
    (seq p q).match? cs = (p.ways cs).findSome? fun w => (q.match? w.rest).map w.andThen := by
  simp [match?, ways, List.head?_flatMap]

theorem match?_word {word : List Char} :
    (seq (.word word) q).match? cs = (afterWord? word cs).bind q.match? := by
  rw [match?_seq, ways]
  cases afterWord? word cs <;> simp

theorem match?_row_word {word : List Char} :
    (row [.word word]).match? cs = (afterWord? word cs).map (⟨[], ·⟩) := by
  rw [match?_row_one, match?, ways]
  cases afterWord? word cs <;> rfl

/-- A word does not match where another character stands than its first. -/
theorem match?_word_of_ne {c d : Char} {word : List Char} (h : c ≠ d) :
    (seq (.word (c :: word)) q).match? (d :: cs) = none := by
  simp [match?_word, afterWord?, h]

theorem match?_one {accepts : Char → Bool} {c : Char} :
    (seq (one accepts) q).match? (c :: cs) = if accepts c then q.match? cs else none := by
  rw [match?_seq, ways]
  split <;> simp

theorem match?_group_one {accepts : Char → Bool} {c : Char} :
    (seq (group (one accepts)) q).match? (c :: cs) =
      if accepts c then (q.match? cs).map fun w => ⟨[c] :: w.groups, w.rest⟩ else none := by
  rw [match?_seq, ways, ways]
  split
  · cases h : q.match? cs <;> simp [h, Way.andThen]
  · rfl

/-! ## Runs -/

/-- After the longest run, only shorter ones are tried, and behind these there is still a character of
the class. -/
theorem afterRun_eq (accepts : Char → Bool) (cs : List Char) :
    ∃ shorter, afterRun accepts cs = cs.dropWhile accepts :: shorter ∧
      ∀ rest ∈ shorter, ∃ c cs', rest = c :: cs' ∧ accepts c := by
  induction cs with
  | nil => exact ⟨[], by simp [afterRun]⟩
  | cons c cs ih =>
    obtain ⟨shorter, heq, hshorter⟩ := ih
    by_cases hc : accepts c
    · refine ⟨shorter ++ [c :: cs], by simp [afterRun, hc, heq], ?_⟩
      intro rest hrest
      rw [List.mem_append, List.mem_singleton] at hrest
      rcases hrest with hrest | rfl
      · exact hshorter rest hrest
      · exact ⟨c, cs, rfl, hc⟩
    · exact ⟨[], by simp [afterRun, hc]⟩

theorem match?_seq_run {accepts : Char → Bool} :
    (seq (run accepts) q).match? cs = (afterRun accepts cs).findSome? q.match? := by
  simp [match?_seq, ways, List.findSome?_map, Function.comp_def]

/-- Shorter runs do not help if no character of the class can be the first of what follows. -/
theorem match?_run {accepts : Char → Bool} (h : ∀ c cs, accepts c → q.match? (c :: cs) = none) :
    (seq (run accepts) q).match? cs = q.match? (cs.dropWhile accepts) := by
  obtain ⟨shorter, heq, hshorter⟩ := afterRun_eq accepts cs
  have hnone : shorter.findSome? q.match? = none := by
    rw [List.findSome?_eq_none_iff]
    intro rest hrest
    obtain ⟨c, cs', rfl, hc⟩ := hshorter rest hrest
    exact h c cs' hc
  rw [match?_seq_run, heq, List.findSome?_cons, hnone]
  cases q.match? (cs.dropWhile accepts) <;> rfl

/-- A run over the whole text gives back as much as it takes to match what follows, which is then found
at its last place. -/
theorem match?_run_of_all {accepts : Char → Bool} (h : ∀ c ∈ cs, accepts c) :
    (seq (run accepts) q).match? cs = last? q.match? cs := by
  rw [match?_seq_run]
  induction cs with
  | nil => simp [afterRun, last?]
  | cons c cs ih =>
    rw [List.forall_mem_cons] at h
    rw [afterRun, if_pos h.1, List.findSome?_append, ih h.2, last?]
    cases last? q.match? cs <;> simp

/-! ## Digits -/

/-- Digits are kept as the whole run of them, or as a part of it that another digit follows. -/
theorem ways_digits (cs : List Char) :
    (digitRun? cs = none ∧ digits.ways cs = []) ∨
      ∃ ds rest shorter, digitRun? cs = some (ds, rest) ∧ digits.ways cs = ⟨[ds], rest⟩ :: shorter ∧
        ∀ w ∈ shorter, ∃ c cs', w.rest = c :: cs' ∧ isDigit c := by
  cases cs with
  | nil => exact .inl ⟨rfl, rfl⟩
  | cons c cs =>
    by_cases hc : isDigit c
    · obtain ⟨shorter, heq, hshorter⟩ := afterRun_eq isDigit cs
      have hkept : (c :: cs).take ((c :: cs).length - (cs.dropWhile isDigit).length) =
          c :: cs.takeWhile isDigit := by
        have hsplit : c :: cs = (c :: cs.takeWhile isDigit) ++ cs.dropWhile isDigit := by simp
        have hlength := congrArg List.length hsplit
        rw [List.length_append] at hlength
        conv => lhs; rw [hsplit]
        exact List.take_left' (by rw [← hsplit]; omega)
      let kept (rest : List Char) : Way := ⟨[(c :: cs).take ((c :: cs).length - rest.length)], rest⟩
      have hways : digits.ways (c :: cs) = (afterRun isDigit cs).map kept := by
        simp [digits, ways, hc, kept, Function.comp_def]
      refine .inr ⟨c :: cs.takeWhile isDigit, cs.dropWhile isDigit, shorter.map kept, ?_, ?_, ?_⟩
      · simp [digitRun?, hc]
      · rw [hways, heq, List.map_cons, ← hkept]
      · intro w hw
        obtain ⟨rest, hrest, rfl⟩ := List.mem_map.1 hw
        exact hshorter rest hrest
    · exact .inl (by simp [digitRun?, digits, ways, hc])

/-- A run of digits is kept whole if what follows cannot begin with a digit. -/
theorem match?_digits (h : ∀ c cs, isDigit c → q.match? (c :: cs) = none) :
    (seq digits q).match? cs =
      (digitRun? cs).bind fun run => (q.match? run.2).map fun w => ⟨run.1 :: w.groups, w.rest⟩ := by
  rw [match?_seq]
  rcases ways_digits cs with ⟨hrun, hways⟩ | ⟨ds, rest, shorter, hrun, hways, hshorter⟩
  · rw [hrun, hways]
    rfl
  · have hnone : shorter.findSome? (fun w => (q.match? w.rest).map w.andThen) = none := by
      rw [List.findSome?_eq_none_iff]
      intro w hw
      obtain ⟨c, cs', heq, hc⟩ := hshorter w hw
      rw [heq, h c cs' hc]
      rfl
    rw [hrun, hways, List.findSome?_cons, hnone]
    cases hrest : q.match? rest <;> simp [hrest, Way.andThen]

/-- A run of digits is kept whole at the end of a pattern. -/
theorem match?_row_digits :
    (row [digits]).match? cs = (digitRun? cs).map fun run => ⟨[run.1], run.2⟩ := by
  rw [match?_row_one, match?]
  rcases ways_digits cs with ⟨hrun, hways⟩ | ⟨ds, rest, shorter, hrun, hways, -⟩ <;>
    simp [hrun, hways]

end Pattern

/-! ## Leftmost matches -/

section Search

variable {α β : Type} {pattern : List Char → Option α} {cs : List Char} {x : α}

theorem first?_eq_some_iff :
    first? pattern cs = some x ↔ ∃ here, here <:+ cs ∧ pattern here = some x ∧
      ∀ earlier, earlier <:+ cs → here.length < earlier.length → pattern earlier = none := by
  induction cs with
  | nil => simp [first?]
  | cons c cs ih =>
    rw [first?]
    cases h : pattern (c :: cs) with
    | some y =>
      constructor
      · intro hy
        refine ⟨c :: cs, List.suffix_refl _, by rw [h, Option.some_inj.1 hy], ?_⟩
        intro earlier hearlier hlt
        exact absurd hearlier.length_le (by omega)
      · intro h
        obtain ⟨here, hhere, hx, hnone⟩ := h
        rcases List.suffix_cons_iff.1 hhere with rfl | hsuffix
        · rw [← hx, h]
        · have hlength := hsuffix.length_le
          rw [hnone _ (List.suffix_refl _) (by simp; omega)] at h
          cases h
    | none =>
      dsimp only
      rw [ih]
      constructor
      · intro h
        obtain ⟨here, hhere, hx, hnone⟩ := h
        refine ⟨here, hhere.trans (List.suffix_cons _ _), hx, ?_⟩
        intro earlier hearlier hlt
        rcases List.suffix_cons_iff.1 hearlier with rfl | hsuffix
        · exact h
        · exact hnone earlier hsuffix hlt
      · intro h
        obtain ⟨here, hhere, hx, hnone⟩ := h
        rcases List.suffix_cons_iff.1 hhere with rfl | hsuffix
        · rw [h] at hx
          cases hx
        · refine ⟨here, hsuffix, hx, ?_⟩
          intro earlier hearlier
          exact hnone earlier (hearlier.trans (List.suffix_cons _ _))

theorem first?_congr {other : List Char → Option α}
    (h : ∀ rest, rest <:+ cs → pattern rest = other rest) : first? pattern cs = first? other cs := by
  induction cs with
  | nil => exact h [] (List.suffix_refl _)
  | cons c cs ih =>
    rw [first?, first?, h _ (List.suffix_refl _), ih]
    intro rest hrest
    exact h rest (hrest.trans (List.suffix_cons _ _))

theorem first?_map (f : α → β) (pattern : List Char → Option α) (cs : List Char) :
    first? (fun cs => (pattern cs).map f) cs = (first? pattern cs).map f := by
  induction cs with
  | nil => rfl
  | cons c cs ih =>
    rw [first?, first?, ih]
    cases pattern (c :: cs) <;> rfl

theorem last?_map (f : α → β) (pattern : List Char → Option α) (cs : List Char) :
    last? (fun cs => (pattern cs).map f) cs = (last? pattern cs).map f := by
  induction cs with
  | nil => rfl
  | cons c cs ih =>
    rw [last?, last?, ih]
    cases last? pattern cs <;> rfl

/-- Where nothing can match, the search goes on behind. -/
theorem first?_append {a : List Char} (h : ∀ c rest, c ∈ a → pattern (c :: rest) = none) :
    first? pattern (a ++ cs) = first? pattern cs := by
  induction a with
  | nil => rfl
  | cons c a ih =>
    rw [List.cons_append, first?, h c _ List.mem_cons_self]
    exact ih fun d rest hd => h d rest (List.mem_cons_of_mem _ hd)

theorem first?_of_match (h : pattern cs = some x) : first? pattern cs = some x := by
  cases cs with
  | nil => exact h
  | cons c cs => rw [first?, h]

theorem exists_of_last? (h : last? pattern cs = some x) : ∃ here, pattern here = some x := by
  induction cs with
  | nil => exact ⟨[], h⟩
  | cons c cs ih =>
    rw [last?] at h
    split at h
    · rename_i hlater
      exact ih (by rw [hlater, h])
    · exact ⟨c :: cs, h⟩

/-- What is found counts whatever stands before it. -/
theorem last?_append (a : List Char) (h : last? pattern cs = some x) :
    last? pattern (a ++ cs) = some x := by
  induction a with
  | nil => exact h
  | cons c a ih => rw [List.cons_append, last?, ih]

/-- Where nothing can match, only what stands behind counts. -/
theorem last?_append_of_none {a : List Char} (h : ∀ c rest, c ∈ a → pattern (c :: rest) = none) :
    last? pattern (a ++ cs) = last? pattern cs := by
  induction a with
  | nil => rfl
  | cons c a ih =>
    rw [List.cons_append, last?, h c _ List.mem_cons_self,
      ih fun d rest hd => h d rest (List.mem_cons_of_mem _ hd)]
    cases last? pattern cs <;> rfl

end Search

/-! ## All matches -/

section Occurrences

variable {α β : Type} {pattern : List Char → Option (α × List Char)} {cs rest : List Char} {x : α}

theorem occurrencesFrom_eq (skip : Nat) (cs : List Char) :
    occurrencesFrom pattern skip cs = occurrences pattern (cs.drop skip) := by
  induction cs generalizing skip with
  | nil => cases skip <;> simp [occurrencesFrom, occurrences]
  | cons c cs ih =>
    cases skip with
    | zero => rfl
    | succ skip => rw [occurrencesFrom, ih, List.drop_succ_cons]

theorem occurrences_of_match {taken : List Char} (hne : taken ≠ [])
    (h : pattern (taken ++ rest) = some (x, rest)) :
    occurrences pattern (taken ++ rest) = x :: occurrences pattern rest := by
  cases taken with
  | nil => exact absurd rfl hne
  | cons c taken =>
    rw [List.cons_append] at h ⊢
    rw [occurrences, occurrencesFrom, h]
    dsimp only
    rw [occurrencesFrom_eq, List.drop_left' (by simp)]

theorem occurrences_of_none {c : Char} (h : pattern (c :: cs) = none) :
    occurrences pattern (c :: cs) = occurrences pattern cs := by
  rw [occurrences, occurrencesFrom, h]
  rfl

theorem exists_of_mem_occurrencesFrom {skip : Nat} (h : x ∈ occurrencesFrom pattern skip cs) :
    ∃ here rest, pattern here = some (x, rest) := by
  induction cs generalizing skip with
  | nil => cases skip <;> cases h
  | cons c cs ih =>
    cases skip with
    | succ skip => exact ih h
    | zero =>
      rw [occurrencesFrom] at h
      split at h
      · rename_i found rest hmatch
        rcases List.mem_cons.1 h with rfl | h
        · exact ⟨c :: cs, rest, hmatch⟩
        · exact ih h
      · exact ih h

theorem occurrencesFrom_map (f : α → β) (pattern : List Char → Option (α × List Char)) (skip : Nat)
    (cs : List Char) :
    occurrencesFrom (fun cs => (pattern cs).map fun found => (f found.1, found.2)) skip cs =
      (occurrencesFrom pattern skip cs).map f := by
  induction cs generalizing skip with
  | nil => cases skip <;> rfl
  | cons c cs ih =>
    cases skip with
    | zero =>
      rw [occurrencesFrom, occurrencesFrom]
      cases pattern (c :: cs) <;> simp [ih]
    | succ skip => exact ih skip

end Occurrences

namespace Pattern

variable {p : Pattern} {cs : List Char} {w v : Way} {found : List (List (List Char))}

theorem find?_eq_some_iff : p.find? cs = some w ↔ p.Finds cs w := first?_eq_some_iff

theorem find?_eq_none_iff : p.find? cs = none ↔ ∀ w, ¬p.Finds cs w := by
  simp [Option.eq_none_iff_forall_ne_some, find?_eq_some_iff]

theorem Finds.unique (h : p.Finds cs w) (h' : p.Finds cs v) : w = v := by
  rw [← find?_eq_some_iff] at h h'
  exact Option.some_inj.1 (h.symm.trans h')

theorem FindsAll.unique {other : List (List (List Char))} (h : p.FindsAll cs found)
    (h' : p.FindsAll cs other) : found = other := by
  induction h generalizing other with
  | none hnone =>
    cases h' with
    | none => rfl
    | next hfinds => exact absurd hfinds (hnone _)
  | next hfinds _ ih =>
    cases h' with
    | none hnone => exact absurd hfinds (hnone _)
    | next hfinds' hrest =>
      cases hfinds.unique hfinds'
      rw [ih hrest]

/-- A place without a match does not count. -/
theorem findsAll_cons {c : Char} (hnone : p.match? (c :: cs) = none) (h : p.FindsAll cs found) :
    p.FindsAll (c :: cs) found := by
  have hsame (w : Way) : p.Finds (c :: cs) w ↔ p.Finds cs w := by
    rw [← find?_eq_some_iff, ← find?_eq_some_iff, find?, first?, hnone]
    rfl
  cases h with
  | none h => exact .none fun w => mt (hsame w).1 (h w)
  | next hfinds hrest => exact .next ((hsame _).2 hfinds) hrest

/-- The pattern matches only with at least one character. -/
def Consumes (p : Pattern) : Prop :=
  ∀ cs w, p.match? cs = some w → ∃ taken, taken ≠ [] ∧ cs = taken ++ w.rest

theorem findsAll_occurrences (hp : p.Consumes) (cs : List Char) :
    p.FindsAll cs (occurrences (fun cs => (p.match? cs).map fun w => (w.groups, w.rest)) cs) := by
  -- Behind a match the text is shorter by what the match has consumed.
  induction hn : cs.length using Nat.strongRecOn generalizing cs with
  | ind n ih =>
    cases hmatch : p.match? cs with
    | some w =>
      obtain ⟨taken, hne, rfl⟩ := hp cs w hmatch
      have hpos := List.length_pos_iff.2 hne
      rw [List.length_append] at hn
      rw [occurrences_of_match hne (by rw [hmatch]; rfl)]
      refine .next ⟨_, List.suffix_refl _, hmatch, ?_⟩ (ih w.rest.length (by omega) w.rest rfl)
      intro earlier hearlier hlt
      exact absurd hearlier.length_le (by omega)
    | none =>
      cases cs with
      | nil =>
        refine .none fun w ⟨here, hhere, hsome, _⟩ => ?_
        rw [List.suffix_nil.1 hhere, hmatch] at hsome
        cases hsome
      | cons c cs =>
        rw [List.length_cons] at hn
        rw [occurrences_of_none (by rw [hmatch]; rfl)]
        exact findsAll_cons hmatch (ih cs.length (by omega) cs rfl)

end Pattern

end Interleave.Text
