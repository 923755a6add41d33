import Interleave.Json.Record
import Interleave.Number.Literal
import Interleave.Proofs.Json.RoundTrip

/-!
# Printed records are read

A record is printed as an object of its fields. What the reader finds in a slot is then the field that was
printed there, if there was one, and a field that fits is fitted into the value that it was printed from.

Results:
* `slots?_spelled`: the slots of a printed object.
* `fit?_spelled`: a printed field that fits.
* `fit?_real`: a printed number, if it is finite.
* `list?_spelled`: a printed list, item by item.
-/
namespace Interleave.Json

/-! ## Fields -/

theorem fits_int {depth : Nat} {n : Int} (hlo : -0x8000000000000000 ≤ n) (hhi : n ≤ maxCount) :
    (Json.int n).Fits depth := by
  unfold maxCount at hhi
  exact fits_number (readsBack_integer hlo (by omega))

theorem fits_nat {depth n : Nat} (h : n ≤ maxCount) : (Json.nat n).Fits depth :=
  fits_int (by omega) (by omega)

theorem real_of_finite {x : Float} (h : x.isFinite = true) : Json.real x = .number (.real x) := if_pos h

theorem fits_real {depth : Nat} {x : Float} (h : x.isFinite = true → (Number.real x).ReadsBack) :
    (Json.real x).Fits depth := by
  by_cases hfinite : x.isFinite = true
  · rw [real_of_finite hfinite]
    exact fits_number (h hfinite)
  · rw [real, if_neg hfinite]
    exact fits_null

theorem natUpTo?_nat {n max : Nat} (h : n ≤ max) : natUpTo? max (.nat n) = some n := by
  rw [natUpTo?, Json.nat, intWithin?, if_pos (by omega)]
  rfl

/-- A printed field that fits. -/
theorem fit?_spelled {α : Type} {j : Json} (h : j.Fits maxDepth) (view : Json → Option α) :
    j.spelled.fit? view = view j := by
  rw [Syntax.fit?, value?_spelled j maxDepth h.1 h.2, Option.bind_some]

/-- A printed integer, within bounds of 64 bits. -/
theorem fit?_int {n min max : Int} (h : min ≤ n ∧ n ≤ max) (hmin : -0x8000000000000000 ≤ min)
    (hmax : max ≤ maxCount) : (Json.int n).spelled.fit? (intWithin? min max) = some n := by
  rw [fit?_spelled (fits_int (hmin.trans h.1) (h.2.trans hmax))]
  exact if_pos h

theorem fit?_nat {n max : Nat} (h : n ≤ max) (hmax : max ≤ maxCount) :
    (Json.nat n).spelled.fit? (natUpTo? max) = some n := by
  rw [fit?_spelled (fits_nat (h.trans hmax)), natUpTo?_nat h]

/-- A number that is not finite is printed as `null`, and `null` is no number. -/
theorem fit?_real {x : Float} (h : x.isFinite = true → (Number.real x).ReadsBack) :
    (Json.real x).spelled.fit? Json.float? = if x.isFinite then some x else none := by
  rw [fit?_spelled (fits_real h), real]
  split <;> rfl

theorem fit?_string {α : Type} (text : String) (view : Json → Option α) :
    (Json.string text).spelled.fit? view = view (.string text) := fit?_spelled (fits_string text) view

/-! ## Slots -/

theorem spelledItems_eq_map (xs : List Json) : spelledItems xs = xs.map spelled := by
  induction xs with
  | nil => rfl
  | cons x xs ih => rw [spelledItems, ih, List.map_cons]

theorem mapM_keys (ms : List (String × Json)) :
    ((spelledMembers ms).mapM fun (key, item) => (text? key).map (·, item)) =
      some (ms.map fun m => (m.1, m.2.spelled)) := by
  induction ms with
  | nil => rfl
  | cons m ms ih =>
    obtain ⟨key, value⟩ := m
    rw [spelledMembers, List.mapM_cons, ih]
    simp only [text?_pieces]
    rfl

/-- The slots of a printed object. -/
theorem slots?_spelled (names : List String) (ms : List (String × Json)) :
    (object ms).spelled.slots? names =
      names.mapM (Syntax.slot? (ms.map fun m => (m.1, m.2.spelled))) := by
  rw [spelled, Syntax.slots?, mapM_keys]
  rfl

/-- A printed list is read if all its items are. -/
theorem list?_spelled {α : Type} {read : Syntax → Option α} {toJson : α → Json} {xs : List α}
    {kept : α → Prop} [DecidablePred kept]
    (h : ∀ x ∈ xs, read (toJson x).spelled = if kept x then some x else none) :
    (array (xs.map toJson)).spelled.list? read = if ∀ x ∈ xs, kept x then some xs else none := by
  rw [spelled, Syntax.list?, spelledItems_eq_map, List.map_map]
  induction xs with
  | nil => simp
  | cons x xs ih =>
    rw [List.forall_mem_cons] at h
    rw [List.map_cons, List.mapM_cons, ih h.2, Function.comp_apply, h.1]
    simp only [List.forall_mem_cons]
    by_cases hx : kept x
    · by_cases hxs : ∀ y ∈ xs, kept y
      · rw [if_pos hx, if_pos hxs, if_pos ⟨hx, hxs⟩]
        rfl
      · rw [if_pos hx, if_neg hxs, if_neg (not_and_of_not_right _ hxs)]
        rfl
    · rw [if_neg hx, if_neg (not_and_of_not_left _ hx)]
      rfl

end Interleave.Json
