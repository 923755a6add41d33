import Interleave.Proofs.Json.Spaced

/-!
# JSON text is read back

The reader finds the syntax of a value in its text. Whether a numeral there is read as the number that it
was printed from is a question of the number alone (`ReadsBack`), so a value is read back if its numbers
are.

Results:
* `compact_injective`: the line tells which value it is.
* `read?_compact`: a value is read back if it `Fits`: its numbers are, and it is not nested too deep.
* `readsBack_integer`: integers of 64 bits are read back.
-/
namespace Interleave.Json

/-! ## The parts of a value -/

mutual

/-- The numbers in a value. -/
def numbers : Json → List Number
  | number n => [n]
  | array xs => itemNumbers xs
  | object ms => memberNumbers ms
  | _ => []

def itemNumbers : List Json → List Number
  | [] => []
  | x :: xs => numbers x ++ itemNumbers xs

def memberNumbers : List (String × Json) → List Number
  | [] => []
  | (_, v) :: ms => numbers v ++ memberNumbers ms

end

mutual

/-- How deep arrays and objects are nested. -/
def nesting : Json → Nat
  | array xs => itemNesting xs + 1
  | object ms => memberNesting ms + 1
  | _ => 0

def itemNesting : List Json → Nat
  | [] => 0
  | x :: xs => max (nesting x) (itemNesting xs)

def memberNesting : List (String × Json) → Nat
  | [] => 0
  | (_, v) :: ms => max (nesting v) (memberNesting ms)

end

/-! ## Which value it is -/

theorem spelled_number {n : Number} (h : n.Finite) : (number n).spelled = .number n.numeral := by
  cases n with
  | integer n => rfl
  | real x =>
    have hx : x.isFinite = true := h
    rw [spelled, Number.spelled, if_pos hx]
    rfl

mutual

/-- The syntax of a value tells which value it is. -/
theorem spelled_inj : ∀ (a b : Json), (∀ n ∈ numbers a, n.Finite) → (∀ n ∈ numbers b, n.Finite) →
    spelled a = spelled b → a = b
  | number m, b, ha, hb, h => by
    rw [spelled_number (ha m List.mem_cons_self)] at h
    cases b with
    | number n =>
      rw [spelled_number (hb n List.mem_cons_self), Syntax.number.injEq] at h
      rw [Number.numeral_inj (ha m List.mem_cons_self) (hb n List.mem_cons_self) h]
    | _ => cases h
  | a, number n, ha, hb, h => by
    rw [spelled_number (hb n List.mem_cons_self)] at h
    cases a with
    | number m =>
      rw [spelled_number (ha m List.mem_cons_self), Syntax.number.injEq] at h
      rw [Number.numeral_inj (ha m List.mem_cons_self) (hb n List.mem_cons_self) h]
    | _ => cases h
  | null, null, _, _, _ => rfl
  | bool a, bool b, _, _, h => by
    cases h
    rfl
  | string s, string t, _, _, h => by
    have hpieces : pieces s = pieces t := by simpa [spelled] using h
    have htext := text?_pieces s
    rw [hpieces, text?_pieces, Option.some.injEq] at htext
    rw [htext]
  | array xs, array ys, ha, hb, h => by
    rw [spelled, spelled, Syntax.array.injEq] at h
    rw [spelledItems_inj xs ys ha hb h]
  | object ms, object ns, ha, hb, h => by
    rw [spelled, spelled, Syntax.object.injEq] at h
    rw [spelledMembers_inj ms ns ha hb h]

theorem spelledItems_inj : ∀ (xs ys : List Json), (∀ n ∈ itemNumbers xs, n.Finite) →
    (∀ n ∈ itemNumbers ys, n.Finite) → spelledItems xs = spelledItems ys → xs = ys
  | [], [], _, _, _ => rfl
  | [], y :: ys, _, _, h => nomatch h
  | x :: xs, [], _, _, h => nomatch h
  | x :: xs, y :: ys, ha, hb, h => by
    rw [spelledItems, spelledItems, List.cons.injEq] at h
    simp only [itemNumbers, List.mem_append] at ha hb
    rw [spelled_inj x y (fun n hn => ha n (.inl hn)) (fun n hn => hb n (.inl hn)) h.1,
      spelledItems_inj xs ys (fun n hn => ha n (.inr hn)) (fun n hn => hb n (.inr hn)) h.2]

theorem spelledMembers_inj : ∀ (ms ns : List (String × Json)), (∀ n ∈ memberNumbers ms, n.Finite) →
    (∀ n ∈ memberNumbers ns, n.Finite) → spelledMembers ms = spelledMembers ns → ms = ns
  | [], [], _, _, _ => rfl
  | [], (l, w) :: ns, _, _, h => nomatch h
  | (k, v) :: ms, [], _, _, h => nomatch h
  | (k, v) :: ms, (l, w) :: ns, ha, hb, h => by
    rw [spelledMembers, spelledMembers, List.cons.injEq, Prod.mk.injEq] at h
    simp only [memberNumbers, List.mem_append] at ha hb
    have hkey := text?_pieces k
    rw [h.1.1, text?_pieces, Option.some.injEq] at hkey
    rw [hkey, spelled_inj v w (fun n hn => ha n (.inl hn)) (fun n hn => hb n (.inl hn)) h.1.2,
      spelledMembers_inj ms ns (fun n hn => ha n (.inr hn)) (fun n hn => hb n (.inr hn)) h.2]

end

/-- The line of a value with finite numbers tells which value it is. -/
theorem compact_injective {a b : Json} (ha : ∀ n ∈ numbers a, n.Finite) (hb : ∀ n ∈ numbers b, n.Finite)
    (h : a.compact = b.compact) : a = b := by
  have hsyntax := syntax?_compact a
  rw [h, syntax?_compact, Option.some.injEq] at hsyntax
  exact spelled_inj a b ha hb hsyntax.symm

/-! ## Fitting -/

/-- The text of the number is read as the number. -/
def Number.ReadsBack (n : Number) : Prop := read? (number n).compact = some (number n)

theorem readsBack_iff {n : Number} (h : n.Finite) : n.ReadsBack ↔ n.numeral.value? = some n := by
  rw [Number.ReadsBack, read?, syntax?_compact, spelled_number h]
  change n.numeral.value?.map number = some (number n) ↔ _
  rw [Option.map_eq_some_iff]
  constructor
  · rintro ⟨m, hm, heq⟩
    cases heq
    exact hm
  · intro hvalue
    exact ⟨n, hvalue, rfl⟩

theorem readsBack_real {x : Float} (hfinite : x.isFinite = true)
    (h : (Number.real x).numeral.value? = some (.real x)) : (Number.real x).ReadsBack :=
  (readsBack_iff (n := .real x) hfinite).2 h

/-- Integers of 64 bits, with or without a sign, are read back. -/
theorem readsBack_integer {n : Int} (hlo : -0x8000000000000000 ≤ n) (hhi : n < 0x10000000000000000) :
    (Number.integer n).ReadsBack := by
  rw [readsBack_iff (n := .integer n) trivial]
  have hgather : gather 0 (Decimal.digits n.natAbs) = (n.natAbs, 0) := by
    rw [gather_of_lt (by rw [Decimal.ofDigits_digits, wordBound]; omega), Decimal.ofDigits_digits]
  change (Numeral.ofSpelling (n < 0) (intSpelling n.natAbs)).value? = _
  unfold Numeral.value? Numeral.isWhole Numeral.gathered Numeral.ofSpelling intSpelling
  dsimp only
  rw [hgather]
  have hsigned : (if decide (n < 0) then -(n.natAbs : Int) else n.natAbs) = n := by
    simp only [decide_eq_true_eq]
    split <;> omega
  rw [hsigned, if_pos]
  simp only [↓reduceIte, Option.isNone_none, Bool.and_self, decide_true, Bool.true_and, Bool.and_eq_true,
    Bool.or_eq_true, bne_iff_ne, Bool.not_eq_eq_eq_not, Bool.not_true, decide_eq_false_iff_not,
    not_lt, decide_eq_true_eq]
  omega

theorem value?_spelled_number {n : Number} (h : n.ReadsBack) (depth : Nat) :
    (number n).spelled.value? depth = some (number n) := by
  rw [Number.ReadsBack, read?, syntax?_compact, Option.bind_some] at h
  rw [← h, spelled]
  cases n with
  | integer n => simp only [Number.spelled, Syntax.value?]
  | real x =>
    rw [Number.spelled]
    split <;> simp only [Syntax.value?]

mutual

/-- The syntax of a value is fitted into the value again. -/
theorem value?_spelled : ∀ (j : Json) (depth : Nat), nesting j ≤ depth →
    (∀ n ∈ numbers j, n.ReadsBack) → j.spelled.value? depth = some j
  | null, _, _, _ => by rw [spelled, Syntax.value?]
  | bool b, _, _, _ => by rw [spelled, Syntax.value?]
  | number n, depth, _, h => value?_spelled_number (h n List.mem_cons_self) depth
  | string s, _, _, _ => by
    rw [spelled, Syntax.value?, text?_pieces]
    rfl
  | array xs, 0, hdepth, _ => nomatch hdepth
  | array xs, depth + 1, hdepth, h => by
    rw [spelled, Syntax.value?, mapM_spelledItems xs depth (Nat.le_of_succ_le_succ hdepth) h]
    rfl
  | object ms, 0, hdepth, _ => nomatch hdepth
  | object ms, depth + 1, hdepth, h => by
    rw [spelled, Syntax.value?, mapM_spelledMembers ms depth (Nat.le_of_succ_le_succ hdepth) h]
    rfl

theorem mapM_spelledItems : ∀ (xs : List Json) (depth : Nat), itemNesting xs ≤ depth →
    (∀ n ∈ itemNumbers xs, n.ReadsBack) → (spelledItems xs).mapM (Syntax.value? depth) = some xs
  | [], _, _, _ => rfl
  | x :: xs, depth, hdepth, h => by
    rw [itemNesting] at hdepth
    simp only [itemNumbers, List.mem_append] at h
    rw [spelledItems, List.mapM_cons,
      value?_spelled x depth (by omega) (fun n hn => h n (.inl hn)),
      mapM_spelledItems xs depth (by omega) (fun n hn => h n (.inr hn))]
    rfl

theorem mapM_spelledMembers : ∀ (ms : List (String × Json)) (depth : Nat), memberNesting ms ≤ depth →
    (∀ n ∈ memberNumbers ms, n.ReadsBack) →
      ((spelledMembers ms).mapM fun (key, item) => do
        let key ← text? key
        let value ← Syntax.value? depth item
        pure (key, value)) = some ms
  | [], _, _, _ => rfl
  | (k, v) :: ms, depth, hdepth, h => by
    rw [memberNesting] at hdepth
    simp only [memberNumbers, List.mem_append] at h
    have hmember : (do
        let key ← text? (pieces k)
        let value ← v.spelled.value? depth
        pure (key, value)) = some (k, v) := by
      rw [text?_pieces, value?_spelled v depth (by omega) (fun n hn => h n (.inl hn))]
      rfl
    rw [spelledMembers, List.mapM_cons,
      mapM_spelledMembers ms depth (by omega) (fun n hn => h n (.inr hn))]
    exact congrArg (· >>= fun m => some (m :: ms)) hmember

end

/-- The numbers of a value are read back, and nothing in it is nested deeper than `depth`. -/
def Fits (depth : Nat) (j : Json) : Prop := nesting j ≤ depth ∧ ∀ n ∈ numbers j, n.ReadsBack

/-- A value that fits is read back. -/
theorem read?_compact {j : Json} (h : j.Fits maxDepth) : read? j.compact = some j := by
  rw [read?, syntax?_compact, Option.bind_some, value?_spelled j maxDepth h.1 h.2]

section
variable {depth : Nat}

theorem fits_null : Fits depth .null := ⟨Nat.zero_le _, List.forall_mem_nil _⟩

theorem fits_bool (b : Bool) : Fits depth (.bool b) := ⟨Nat.zero_le _, List.forall_mem_nil _⟩

theorem fits_string (s : String) : Fits depth (.string s) := ⟨Nat.zero_le _, List.forall_mem_nil _⟩

theorem fits_number {n : Number} (h : n.ReadsBack) : Fits depth (.number n) :=
  ⟨Nat.zero_le _, List.forall_mem_singleton.2 h⟩

theorem fits_orNull {α : Type} {f : α → Json} {o : Option α} (h : ∀ x ∈ o, Fits depth (f x)) :
    Fits depth (.orNull f o) := by
  cases o with
  | none => exact fits_null
  | some x => exact h x rfl

theorem fits_array {xs : List Json} (h : ∀ x ∈ xs, Fits depth x) : Fits (depth + 1) (.array xs) := by
  induction xs with
  | nil => exact ⟨Nat.le_add_left 1 depth, List.forall_mem_nil _⟩
  | cons x xs ih =>
    rw [List.forall_mem_cons] at h
    obtain ⟨hnesting, hnumbers⟩ := ih h.2
    exact ⟨Nat.succ_le_succ (Nat.max_le.2 ⟨h.1.1, Nat.le_of_succ_le_succ hnesting⟩),
      List.forall_mem_append.2 ⟨h.1.2, hnumbers⟩⟩

theorem fits_object {ms : List (String × Json)} (h : ∀ m ∈ ms, Fits depth m.2) :
    Fits (depth + 1) (.object ms) := by
  induction ms with
  | nil => exact ⟨Nat.le_add_left 1 depth, List.forall_mem_nil _⟩
  | cons m ms ih =>
    rw [List.forall_mem_cons] at h
    obtain ⟨hnesting, hnumbers⟩ := ih h.2
    exact ⟨Nat.succ_le_succ (Nat.max_le.2 ⟨h.1.1, Nat.le_of_succ_le_succ hnesting⟩),
      List.forall_mem_append.2 ⟨h.1.2, hnumbers⟩⟩

end

end Interleave.Json
