import Interleave.Proofs.Json.Canonical

/-!
# What a reader can give

Fitting a text into a value bounds the value: arrays and objects are nested only so deep, and integers
have at most 64 bits (`Readable`). So a value that was read can be written and read again if its other
numbers can.

Results:
* `readable_of_read?`: every value that is read is readable.
* `Readable.fits`: a readable value is read back if its fractions are.
-/
namespace Interleave.Json

/-! ## The parts of a value -/

theorem mem_itemNumbers {n : Number} {xs : List Json} :
    n ∈ itemNumbers xs ↔ ∃ x ∈ xs, n ∈ numbers x := by
  induction xs with
  | nil => simp [itemNumbers]
  | cons x xs ih => rw [itemNumbers, List.mem_append, ih, List.exists_mem_cons_iff]

theorem itemNesting_le {depth : Nat} {xs : List Json} :
    itemNesting xs ≤ depth ↔ ∀ x ∈ xs, nesting x ≤ depth := by
  induction xs with
  | nil => simp [itemNesting]
  | cons x xs ih => rw [itemNesting, Nat.max_le, ih, List.forall_mem_cons]

theorem memberNesting_le {depth : Nat} {ms : List (String × Json)} :
    memberNesting ms ≤ depth ↔ ∀ m ∈ ms, nesting m.2 ≤ depth := by
  induction ms with
  | nil => simp [memberNesting]
  | cons m ms ih =>
    obtain ⟨k, v⟩ := m
    rw [memberNesting, Nat.max_le, ih, List.forall_mem_cons]

/-! ## Readable values -/

/-- At most `depth` arrays and objects are nested, and the integers are those of 64 bits. -/
structure Readable (depth : Nat) (j : Json) : Prop where
  nesting_le : nesting j ≤ depth
  integers : ∀ n, .integer n ∈ numbers j → -0x8000000000000000 ≤ n ∧ n < 0x10000000000000000

variable {depth : Nat} {j : Json}

theorem readable_array {xs : List Json} (h : ∀ x ∈ xs, Readable depth x) :
    Readable (depth + 1) (.array xs) where
  nesting_le := Nat.succ_le_succ (itemNesting_le.2 fun x hx => (h x hx).nesting_le)
  integers := by
    intro n hn
    obtain ⟨x, hx, hnx⟩ := mem_itemNumbers.1 hn
    exact (h x hx).integers n hnx

theorem readable_object {ms : List (String × Json)} (h : ∀ m ∈ ms, Readable depth m.2) :
    Readable (depth + 1) (.object ms) where
  nesting_le := Nat.succ_le_succ (memberNesting_le.2 fun m hm => (h m hm).nesting_le)
  integers := by
    intro n hn
    obtain ⟨m, hm, hnm⟩ := mem_memberNumbers.1 hn
    exact (h m hm).integers n hnm

theorem Readable.member {ms : List (String × Json)} (h : Readable (depth + 1) (.object ms))
    {m : String × Json} (hm : m ∈ ms) : Readable depth m.2 where
  nesting_le := memberNesting_le.1 (Nat.le_of_succ_le_succ h.nesting_le) m hm
  integers := fun n hn => h.integers n (mem_memberNumbers.2 ⟨m, hm, hn⟩)

theorem Readable.canonical (h : Readable depth j) : Readable depth j.canonical where
  nesting_le := Nat.le_trans (nesting_canonical j) h.nesting_le
  integers := fun n hn => h.integers n (mem_numbers_canonical j hn)

/-- A readable value is read back if its fractions are. -/
theorem Readable.fits (h : Readable depth j)
    (hreal : ∀ x, .real x ∈ numbers j → (Number.real x).ReadsBack) : j.Fits depth := by
  refine ⟨h.nesting_le, ?_⟩
  intro n hn
  cases n with
  | integer n => exact readsBack_integer (h.integers n hn).1 (h.integers n hn).2
  | real x => exact hreal x hn

/-! ## Reading -/

/-- An integer is taken up in 64 bits, and the least one is that of a signed word. -/
theorem integer_bounds {numeral : Numeral} {n : Int} (h : numeral.value? = some (.integer n)) :
    -0x8000000000000000 ≤ n ∧ n < 0x10000000000000000 := by
  have hgather : numeral.gathered.1 < wordBound := gather_lt (by decide) numeral.whole
  unfold wordBound at hgather
  have hsigned : (if numeral.negative then -(numeral.gathered.1 : Int) else numeral.gathered.1) <
      0x10000000000000000 := by
    split <;> omega
  unfold Numeral.value? at h
  dsimp only at h
  generalize (if numeral.negative then -(numeral.gathered.1 : Int) else numeral.gathered.1) = signed
    at h hsigned
  split at h
  · rename_i hwhole
    cases h
    rw [Bool.and_eq_true, decide_eq_true_eq] at hwhole
    exact ⟨hwhole.2, hsigned⟩
  · obtain ⟨x, -, hx⟩ := Option.map_eq_some_iff.1 h
    cases hx

/-- What is made of a list item by item is made of its items. -/
theorem exists_of_mem_mapM {α β : Type} {f : α → Option β} {xs : List α} {ys : List β} {y : β}
    (h : xs.mapM f = some ys) (hy : y ∈ ys) : ∃ x ∈ xs, f x = some y := by
  induction xs generalizing ys with
  | nil =>
    cases h
    cases hy
  | cons x xs ih =>
    rw [List.mapM_cons] at h
    obtain ⟨z, hz, h⟩ := Option.bind_eq_some_iff.1 h
    obtain ⟨zs, hzs, h⟩ := Option.bind_eq_some_iff.1 h
    cases h
    rcases List.mem_cons.1 hy with rfl | hy
    · exact ⟨x, List.mem_cons_self, hz⟩
    · obtain ⟨x', hx', heq⟩ := ih hzs hy
      exact ⟨x', List.mem_cons_of_mem _ hx', heq⟩

theorem readable_number {numeral : Numeral} {n : Number} (h : numeral.value? = some n) :
    Readable depth (.number n) where
  nesting_le := Nat.zero_le _
  integers := by
    intro m hm
    rw [numbers, List.mem_singleton] at hm
    exact integer_bounds (hm ▸ h)

/-- A value without parts and numbers. -/
theorem readable_plain (hnesting : nesting j = 0) (hnumbers : numbers j = []) : Readable depth j where
  nesting_le := by omega
  integers := by simp [hnumbers]

/-- The value of a syntax is readable. -/
theorem readable_of_value? : ∀ (depth : Nat) (s : Syntax) {j : Json}, s.value? depth = some j →
    Readable depth j
  | _, .null, _, h | _, .bool _, _, h => by
    rw [Syntax.value?] at h
    cases h
    exact readable_plain rfl rfl
  | _, .number n, _, h => by
    rw [Syntax.value?] at h
    obtain ⟨m, hm, rfl⟩ := Option.map_eq_some_iff.1 h
    exact readable_number hm
  | _, .string ps, _, h => by
    rw [Syntax.value?] at h
    obtain ⟨t, -, rfl⟩ := Option.map_eq_some_iff.1 h
    exact readable_plain rfl rfl
  | 0, .array _, _, h | 0, .object _, _, h => by cases h
  | depth + 1, .array xs, _, h => by
    obtain ⟨ys, hys, rfl⟩ := Option.map_eq_some_iff.1 h
    apply readable_array
    intro y hy
    obtain ⟨x, -, hx⟩ := exists_of_mem_mapM hys hy
    exact readable_of_value? depth x hx
  | depth + 1, .object ms, _, h => by
    obtain ⟨ns, hns, rfl⟩ := Option.map_eq_some_iff.1 h
    apply readable_object
    intro n hn
    obtain ⟨m, -, hm⟩ := exists_of_mem_mapM hns hn
    obtain ⟨key, -, hm⟩ := Option.bind_eq_some_iff.1 hm
    obtain ⟨value, hvalue, hm⟩ := Option.bind_eq_some_iff.1 hm
    cases hm
    exact readable_of_value? depth m.2 hvalue

theorem readable_of_read? {text : String} (h : read? text = some j) : Readable maxDepth j := by
  obtain ⟨s, -, hs⟩ := Option.bind_eq_some_iff.1 h
  exact readable_of_value? maxDepth s hs

end Interleave.Json
