import Interleave.Proofs.Json.RoundTrip

/-!
# The canonical form of a value

Canonical members are sorted by key, each key once. What a key has is what its last member has, in
canonical form, so sorting does not change what is found. Numbers are only left out, never added, and
the form of a canonical value is the value itself.

Results:
* `lookup_canonical`: distinct keys have what they had before.
* `canonical_canonical`: sorting twice is sorting once.
* `Fits.canonical`: what sorting can do to numbers and depth.
-/
namespace Interleave.Json

/-! ## What a key has -/

theorem lookup_insertMember (key : String) (v : Json) (ms : List (String × Json)) (k : String) :
    (insertMember key v ms).lookup k = if k = key then some v else ms.lookup k := by
  induction ms with
  | nil => rw [insertMember, List.lookup_cons, beq_eq_decide]; by_cases h : k = key <;> simp [h]
  | cons m ms ih =>
    obtain ⟨k', v'⟩ := m
    rw [insertMember]
    split
    · rw [List.lookup_cons, beq_eq_decide]
      by_cases h : k = key <;> simp [h]
    · split
      · rename_i hkey
        subst hkey
        rw [List.lookup_cons, List.lookup_cons, beq_eq_decide]
        by_cases h : k = key <;> simp [h]
      · rename_i hne
        rw [List.lookup_cons, List.lookup_cons, ih]
        by_cases h : k = k'
        · subst h
          simp only [beq_self_eq_true, if_neg (Ne.symm hne)]
        · rw [beq_false_of_ne h]

/-- The last member of a key counts, before those that were already sorted. -/
theorem lookup_canonicalMembers (sorted ms : List (String × Json)) (k : String) :
    (canonicalMembers sorted ms).lookup k =
      ((ms.reverse.lookup k).map canonical).or (sorted.lookup k) := by
  induction ms generalizing sorted with
  | nil => rfl
  | cons m ms ih =>
    obtain ⟨key, v⟩ := m
    rw [canonicalMembers, ih, List.reverse_cons, List.lookup_append, lookup_insertMember]
    cases ms.reverse.lookup k with
    | some w => rfl
    | none =>
      rw [List.lookup_cons, beq_eq_decide]
      by_cases h : k = key <;> simp [h]

theorem lookup_eq_none {α : Type} {ms : List (String × α)} {k : String} (h : k ∉ ms.map (·.1)) :
    ms.lookup k = none := by
  rw [List.lookup_eq_none_iff]
  intro p hp
  apply bne_iff_ne.2
  rintro rfl
  exact h (List.mem_map.2 ⟨p, hp, rfl⟩)

theorem lookup_reverse {ms : List (String × Json)} (h : (ms.map (·.1)).Nodup) (k : String) :
    ms.reverse.lookup k = ms.lookup k := by
  induction ms with
  | nil => rfl
  | cons m ms ih =>
    obtain ⟨key, v⟩ := m
    rw [List.map_cons, List.nodup_cons] at h
    rw [List.reverse_cons, List.lookup_append, ih h.2, List.lookup_cons, List.lookup_cons]
    by_cases hk : k = key
    · subst hk
      rw [lookup_eq_none h.1, beq_self_eq_true]
      rfl
    · rw [beq_false_of_ne hk, List.lookup_nil, Option.or_none]

/-- With distinct keys, sorting does not change what a key has. -/
theorem lookup_canonical {ms : List (String × Json)} (h : (ms.map (·.1)).Nodup) (k : String) :
    (canonicalMembers [] ms).lookup k = (ms.lookup k).map canonical := by
  rw [lookup_canonicalMembers, lookup_reverse h, List.lookup_nil, Option.or_none]

/-! ## Numbers and depth -/

theorem mem_memberNumbers {n : Number} {ms : List (String × Json)} :
    n ∈ memberNumbers ms ↔ ∃ m ∈ ms, n ∈ numbers m.2 := by
  induction ms with
  | nil => simp [memberNumbers]
  | cons m ms ih =>
    obtain ⟨k, v⟩ := m
    rw [memberNumbers, List.mem_append, ih, List.exists_mem_cons_iff]

theorem mem_memberNumbers_insert {n : Number} {key : String} {v : Json} {ms : List (String × Json)}
    (h : n ∈ memberNumbers (insertMember key v ms)) : n ∈ numbers v ∨ n ∈ memberNumbers ms := by
  induction ms with
  | nil => simpa [insertMember, memberNumbers] using h
  | cons m ms ih =>
    obtain ⟨k', v'⟩ := m
    rw [insertMember] at h
    split at h
    · simpa only [memberNumbers, List.mem_append] using h
    · split at h
      · simp only [memberNumbers, List.mem_append] at h ⊢
        exact h.imp_right .inr
      · simp only [memberNumbers, List.mem_append] at h ⊢
        exact h.elim (fun h => .inr (.inl h)) fun h => (ih h).imp_right .inr

theorem memberNesting_insert (key : String) (v : Json) (ms : List (String × Json)) :
    memberNesting (insertMember key v ms) ≤ max (nesting v) (memberNesting ms) := by
  induction ms with
  | nil => simp [insertMember, memberNesting]
  | cons m ms ih =>
    obtain ⟨k', v'⟩ := m
    rw [insertMember]
    split
    · exact Nat.le_refl _
    · split
      · simp only [memberNesting]
        omega
      · simp only [memberNesting]
        omega

mutual

/-- Sorting adds no number. -/
theorem mem_numbers_canonical : ∀ (j : Json) {n : Number}, n ∈ numbers (canonical j) → n ∈ numbers j
  | null, _, h | bool _, _, h | number _, _, h | string _, _, h => h
  | array xs, _, h => by
    rw [canonical, numbers] at h
    exact mem_itemNumbers_canonical xs h
  | object ms, _, h => by
    rw [canonical, numbers] at h
    exact (mem_memberNumbers_canonical [] ms h).resolve_left List.not_mem_nil

theorem mem_itemNumbers_canonical : ∀ (xs : List Json) {n : Number},
    n ∈ itemNumbers (canonicalItems xs) → n ∈ itemNumbers xs
  | [], _, h => h
  | x :: xs, _, h => by
    rw [canonicalItems, itemNumbers, List.mem_append] at h
    rw [itemNumbers, List.mem_append]
    exact h.imp (mem_numbers_canonical x) (mem_itemNumbers_canonical xs)

theorem mem_memberNumbers_canonical : ∀ (sorted ms : List (String × Json)) {n : Number},
    n ∈ memberNumbers (canonicalMembers sorted ms) → n ∈ memberNumbers sorted ∨ n ∈ memberNumbers ms
  | _, [], _, h => .inl h
  | sorted, (k, v) :: ms, _, h => by
    rw [canonicalMembers] at h
    rw [memberNumbers, List.mem_append]
    rcases mem_memberNumbers_canonical _ ms h with h | h
    · exact (mem_memberNumbers_insert h).elim (fun h => .inr (.inl (mem_numbers_canonical v h))) .inl
    · exact .inr (.inr h)

end

mutual

/-- Sorting does not nest deeper. -/
theorem nesting_canonical : ∀ j : Json, nesting (canonical j) ≤ nesting j
  | null | bool _ | number _ | string _ => Nat.le_refl _
  | array xs => Nat.succ_le_succ (itemNesting_canonical xs)
  | object ms => by
    have h := memberNesting_canonical [] ms
    rw [memberNesting, Nat.zero_max] at h
    exact Nat.succ_le_succ h

theorem itemNesting_canonical : ∀ xs : List Json, itemNesting (canonicalItems xs) ≤ itemNesting xs
  | [] => Nat.le_refl _
  | x :: xs => by
    have hx := nesting_canonical x
    have hxs := itemNesting_canonical xs
    rw [canonicalItems, itemNesting, itemNesting]
    omega

theorem memberNesting_canonical : ∀ sorted ms : List (String × Json),
    memberNesting (canonicalMembers sorted ms) ≤ max (memberNesting sorted) (memberNesting ms)
  | _, [] => Nat.le_max_left _ _
  | sorted, (k, v) :: ms => by
    have hms := memberNesting_canonical (insertMember k (canonical v) sorted) ms
    have hinsert := memberNesting_insert k (canonical v) sorted
    have hv := nesting_canonical v
    rw [canonicalMembers, memberNesting]
    omega

end

/-- Sorting a value that fits leaves one that does. -/
theorem Fits.canonical {depth : Nat} {j : Json} (h : j.Fits depth) : j.canonical.Fits depth :=
  ⟨Nat.le_trans (nesting_canonical j) h.1, fun n hn => h.2 n (mem_numbers_canonical j hn)⟩

/-! ## Sorting twice -/

/-- Members sorted by key, each key once, with values in canonical form. -/
def Sorted (ms : List (String × Json)) : Prop :=
  ms.Pairwise (·.1 < ·.1) ∧ ∀ m ∈ ms, canonical m.2 = m.2

theorem mem_insertMember {key : String} {v : Json} {ms : List (String × Json)} {m : String × Json}
    (h : m ∈ insertMember key v ms) : m = (key, v) ∨ m ∈ ms := by
  induction ms with
  | nil => simpa [insertMember] using h
  | cons m' ms ih =>
    obtain ⟨k', v'⟩ := m'
    rw [insertMember] at h
    split at h
    · simpa using h
    · split at h
      · exact (List.mem_cons.1 h).imp_right (List.mem_cons_of_mem _)
      · rcases List.mem_cons.1 h with rfl | h
        · exact .inr List.mem_cons_self
        · exact (ih h).imp_right (List.mem_cons_of_mem _)

theorem sorted_insertMember {key : String} {v : Json} {ms : List (String × Json)} (hms : Sorted ms)
    (hv : canonical v = v) : Sorted (insertMember key v ms) := by
  constructor
  · replace hms := hms.1
    induction ms with
    | nil => simp [insertMember]
    | cons m ms ih =>
      obtain ⟨k', v'⟩ := m
      rw [List.pairwise_cons] at hms
      rw [insertMember]
      split
      · rename_i hlt
        refine List.pairwise_cons.2 ⟨?_, List.pairwise_cons.2 hms⟩
        intro m hm
        rcases List.mem_cons.1 hm with rfl | hm
        · exact hlt
        · exact lt_trans hlt (hms.1 m hm)
      · split
        · rename_i hkey
          subst hkey
          exact List.pairwise_cons.2 hms
        · rename_i hle hne
          refine List.pairwise_cons.2 ⟨?_, ih hms.2⟩
          intro m hm
          rcases mem_insertMember hm with rfl | hm
          · exact lt_of_le_of_ne (not_lt.1 hle) (Ne.symm hne)
          · exact hms.1 m hm
  · intro m hm
    rcases mem_insertMember hm with rfl | hm
    · exact hv
    · exact hms.2 m hm

/-- A key behind all others is put at the end. -/
theorem insertMember_last {key : String} {v : Json} {ms : List (String × Json)}
    (h : ∀ m ∈ ms, m.1 < key) : insertMember key v ms = ms ++ [(key, v)] := by
  induction ms with
  | nil => rfl
  | cons m ms ih =>
    obtain ⟨k', v'⟩ := m
    have hlt : k' < key := h (k', v') List.mem_cons_self
    rw [insertMember, if_neg (lt_asymm hlt), if_neg hlt.ne', ih fun m hm => h m (List.mem_cons_of_mem _ hm)]
    rfl

theorem canonicalMembers_of_sorted {sorted ms : List (String × Json)} (h : Sorted (sorted ++ ms)) :
    canonicalMembers sorted ms = sorted ++ ms := by
  induction ms generalizing sorted with
  | nil => rw [canonicalMembers, List.append_nil]
  | cons m ms ih =>
    obtain ⟨key, v⟩ := m
    have hv : canonical v = v := h.2 (key, v) (by simp)
    have hlast : ∀ m ∈ sorted, m.1 < key := by
      intro m hm
      exact (List.pairwise_append.1 h.1).2.2 m hm (key, v) List.mem_cons_self
    rw [canonicalMembers, hv, insertMember_last hlast, ih, List.append_assoc]
    · rfl
    · rw [List.append_assoc]
      exact h

mutual

/-- Sorting twice is sorting once. -/
theorem canonical_canonical : ∀ j : Json, canonical (canonical j) = canonical j
  | null | bool _ | number _ | string _ => rfl
  | array xs => by rw [canonical, canonical, canonicalItems_canonicalItems xs]
  | object ms => by
    have h := sorted_canonicalMembers [] ms ⟨List.Pairwise.nil, nofun⟩
    rw [canonical, canonical, canonicalMembers_of_sorted (by rwa [List.nil_append]), List.nil_append]

theorem canonicalItems_canonicalItems : ∀ xs : List Json,
    canonicalItems (canonicalItems xs) = canonicalItems xs
  | [] => rfl
  | x :: xs => by
    rw [canonicalItems, canonicalItems, canonical_canonical x, canonicalItems_canonicalItems xs]

theorem sorted_canonicalMembers : ∀ sorted ms : List (String × Json), Sorted sorted →
    Sorted (canonicalMembers sorted ms)
  | _, [], h => h
  | sorted, (k, v) :: ms, h => by
    rw [canonicalMembers]
    exact sorted_canonicalMembers _ ms (sorted_insertMember h (canonical_canonical v))

end

end Interleave.Json
