import Interleave.Proofs.Text.Lines
import Interleave.Telemetry.Records

/-!
# Blocks of lines

A block is a maximal run of consecutive lines that are not blank. A text falls into its blocks in one way,
and what stands before a block and after it falls into blocks as it would without it.

Results:
* `blocks_number`: around a block, the lines on either side have the blocks they have on their own.
* `mem_blocks_number_iff`: the blocks are the maximal runs.
* `flatten_blocks`: no line that is not blank is lost, and their order stays.
* `blocks_later`: a text further down has the same blocks, with later numbers.
-/
namespace Interleave.Telemetry

open Text (NumberedLine isBlankText number)

/-- Lines that are not blank, with nothing but a blank line or an end of the text next to them. -/
structure IsBlock (before block after : List String) : Prop where
  ne_nil : block ≠ []
  filled : ∀ l ∈ block, isBlankText l = false
  starts : ∀ l ∈ before.getLast?, isBlankText l = true
  ends : ∀ l ∈ after.head?, isBlankText l = true

variable {current : List NumberedLine} {block : List NumberedLine} {before lines after : List String}
  {first : Nat}

theorem number_append_singleton (first : Nat) (ls : List String) (l : String) :
    number first (ls ++ [l]) = number first ls ++ [⟨first + ls.length, l⟩] :=
  Text.number_append first ls [l]

theorem isBlankLine_of_mem_number (h : ∀ l ∈ lines, isBlankText l = false) :
    ∀ l ∈ number first lines, isBlankLine l = false := by
  intro l hl
  obtain ⟨i, htext, -⟩ := Text.mem_number_iff.1 hl
  exact h l.text (List.mem_of_getElem? htext)

/-! ## Around a block -/

/-- Lines that are not blank stay in the open block. -/
theorem blocksFrom_filled {ls rest : List NumberedLine} (h : ∀ l ∈ ls, isBlankLine l = false) :
    blocksFrom current (ls ++ rest) = blocksFrom (ls.reverse ++ current) rest := by
  induction ls generalizing current with
  | nil => rfl
  | cons l ls ih =>
    rw [List.forall_mem_cons] at h
    simp [blocksFrom, h.1, ih h.2]

/-- A block that is open is closed by a blank line or the end. -/
theorem blocksFrom_closed {rest : List NumberedLine} (hne : current ≠ [])
    (h : ∀ l ∈ rest.head?, isBlankLine l = true) :
    blocksFrom current rest = current.reverse :: blocks rest := by
  cases rest with
  | nil => simp [blocksFrom, blocks, hne]
  | cons l rest => simp [blocksFrom, blocks, hne, h l rfl]

theorem blocks_filled {ls rest : List NumberedLine} (hne : ls ≠ []) (h : ∀ l ∈ ls, isBlankLine l = false)
    (hrest : ∀ l ∈ rest.head?, isBlankLine l = true) : blocks (ls ++ rest) = ls :: blocks rest := by
  rw [blocks, blocksFrom_filled h, blocksFrom_closed (by simpa using hne) hrest]
  simp

theorem blocks_number (h : IsBlock before lines after) (first : Nat) :
    blocks (number first (before ++ lines ++ after)) =
      blocks (number first before) ++ number (first + before.length) lines ::
        blocks (number (first + before.length + lines.length) after) := by
  have hlines : blocks (number (first + before.length) lines ++
      number (first + before.length + lines.length) after) = number (first + before.length) lines ::
        blocks (number (first + before.length + lines.length) after) := by
    refine blocks_filled ?_ (isBlankLine_of_mem_number h.filled) ?_
    · intro hnil
      exact h.ne_nil (List.length_eq_zero_iff.1 (by rw [← Text.length_number, hnil]; rfl))
    · cases after with
      | nil => simp [number]
      | cons l after => simpa [number, isBlankLine] using h.ends l rfl
  rw [List.append_assoc, Text.number_append, Text.number_append]
  rcases List.eq_nil_or_concat before with rfl | ⟨init, last, hconcat⟩
  · exact hlines
  · rw [List.concat_eq_append] at hconcat
    subst hconcat
    have hblank : isBlankLine ⟨first + init.length, last⟩ := h.starts last (by simp)
    rw [number_append_singleton, List.append_assoc, List.singleton_append, blocks_append _ _ _ hblank,
      hlines]

/-! ## All blocks -/

/-- Behind a blank line a block is a block, whatever stands before the line. -/
theorem IsBlock.behind {l : String} (h : IsBlock before lines after) (hl : isBlankText l = true)
    (opened : List String) : IsBlock (opened ++ l :: before) lines after where
  ne_nil := h.ne_nil
  filled := h.filled
  starts := by
    cases before with
    | nil => simpa using hl
    | cons b before => simpa using h.starts
  ends := h.ends

/-- A block of the open lines and those behind them is a maximal run of all of them. -/
theorem exists_run_of_mem_blocksFrom {opened : List String} (hopen : ∀ l ∈ opened, isBlankText l = false)
    (h : block ∈ blocksFrom (number first opened).reverse (number (first + opened.length) lines)) :
    ∃ before run after, opened ++ lines = before ++ run ++ after ∧ IsBlock before run after ∧
      block = number (first + before.length) run := by
  induction lines generalizing opened first with
  | nil =>
    cases opened with
    | nil => simp [number, blocksFrom] at h
    | cons l opened =>
      refine ⟨[], l :: opened, [], by simp, ⟨by simp, hopen, by simp, by simp⟩, ?_⟩
      simpa [number, blocksFrom] using h
  | cons l lines ih =>
    rw [number] at h
    by_cases hl : isBlankText l
    · -- the line closes the block of the open lines, if there are any
      have hrest (hmem : block ∈ blocksFrom [] (number (first + opened.length + 1) lines)) :
          ∃ before run after, opened ++ l :: lines = before ++ run ++ after ∧ IsBlock before run after ∧
            block = number (first + before.length) run := by
        have hnone : ∀ l' ∈ ([] : List String), isBlankText l' = false := by simp
        obtain ⟨before, run, after, hsplit, hrun, hblock⟩ := ih hnone hmem
        refine ⟨opened ++ l :: before, run, after, by simp_all, hrun.behind hl opened, ?_⟩
        rw [hblock]
        congr 1
        simp
        omega
      simp only [blocksFrom, show isBlankLine ⟨first + opened.length, l⟩ = true from hl, if_true] at h
      split at h
      · exact hrest h
      · rename_i hne
        rcases List.mem_cons.1 h with hopened | hmem
        · have hne' : opened ≠ [] := by
            rintro rfl
            exact hne rfl
          refine ⟨[], opened, l :: lines, by simp, ⟨hne', hopen, by simp, by simpa using hl⟩, ?_⟩
          simpa using hopened
        · exact hrest hmem
    · -- the line is one more of the open block
      have hopen' : ∀ l' ∈ opened ++ [l], isBlankText l' = false := by
        intro l' hl'
        rcases List.mem_append.1 hl' with hmem | hmem
        · exact hopen l' hmem
        · rw [List.mem_singleton.1 hmem]
          exact Bool.eq_false_iff.2 hl
      have hmem : block ∈ blocksFrom (number first (opened ++ [l])).reverse
          (number (first + (opened ++ [l]).length) lines) := by
        rw [number_append_singleton]
        simpa [blocksFrom, isBlankLine, hl, Nat.add_assoc] using h
      obtain ⟨before, run, after, hsplit, hrun⟩ := ih hopen' hmem
      exact ⟨before, run, after, by rw [← hsplit]; simp, hrun⟩

/-- The blocks are the maximal runs of lines that are not blank. -/
theorem mem_blocks_number_iff : block ∈ blocks (number first lines) ↔
    ∃ before run after, lines = before ++ run ++ after ∧ IsBlock before run after ∧
      block = number (first + before.length) run := by
  constructor
  · intro h
    have hnone : ∀ l ∈ ([] : List String), isBlankText l = false := by simp
    exact exists_run_of_mem_blocksFrom hnone h
  · rintro ⟨before, run, after, rfl, hrun, rfl⟩
    rw [blocks_number hrun]
    exact List.mem_append_right _ List.mem_cons_self

theorem ne_nil_of_mem_blocks (h : block ∈ blocks (number first lines)) : block ≠ [] := by
  obtain ⟨before, run, after, -, hrun, rfl⟩ := mem_blocks_number_iff.1 h
  intro hnil
  exact hrun.ne_nil (List.length_eq_zero_iff.1 (by rw [← Text.length_number, hnil]; rfl))

theorem flatten_blocksFrom (current ls : List NumberedLine) :
    (blocksFrom current ls).flatten = current.reverse ++ ls.filter (!isBlankLine ·) := by
  induction ls generalizing current with
  | nil => by_cases hc : current = [] <;> simp [blocksFrom, hc]
  | cons l ls ih =>
    by_cases hl : isBlankLine l <;> by_cases hc : current = [] <;> simp [blocksFrom, hl, hc, ih]

/-- Every line that is not blank is in a block, and they keep their order. -/
theorem flatten_blocks (ls : List NumberedLine) : (blocks ls).flatten = ls.filter (!isBlankLine ·) :=
  flatten_blocksFrom [] ls

/-! ## Further down -/

theorem blocksFrom_later (count : Nat) (current ls : List NumberedLine) :
    blocksFrom (current.map (·.later count)) (ls.map (·.later count)) =
      (blocksFrom current ls).map (·.map (·.later count)) := by
  induction ls generalizing current with
  | nil => by_cases hc : current = [] <;> simp [blocksFrom, hc]
  | cons l ls ih =>
    have hsame : isBlankLine (l.later count) = isBlankLine l := rfl
    have hempty := ih []
    have hopen := ih (l :: current)
    rw [List.map_nil] at hempty
    rw [List.map_cons] at hopen
    by_cases hl : isBlankLine l
    · cases current <;> simp [blocksFrom, hsame, hl, hempty]
    · simp [blocksFrom, hsame, hl, hopen]

/-- Further down in a text, the same lines have the same blocks. -/
theorem blocks_later (count first : Nat) (ls : List String) :
    blocks (number (first + count) ls) = (blocks (number first ls)).map (·.map (·.later count)) := by
  rw [Text.number_later]
  exact blocksFrom_later count [] (number first ls)

end Interleave.Telemetry
