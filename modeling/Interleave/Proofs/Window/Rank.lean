import Interleave.Sample
import Mathlib.Data.List.Basic

/-!
# Ranks of totals

A percentile asks for a rank among the totals of some samples. The total of rank `k` has fewer than `k`
samples below it and at least `k` that are not above it. This says nothing of the order in which the
samples came, and it leaves one total at most; a higher rank has no lower one. NaNs and signed zeros
have places like all other totals, so they are counted and found like them.

Results:
* `HasRank.unique`, `HasRank.le`: one total has a rank, and a higher rank has no lower total.
* `hasRank_rankedKeys`: what sorting puts at an index has the rank after it.
* `exists_selectPercentile`: a percentile of some samples is the first with the total of its rank.
* `percentile_has_rank`: other orders of the samples give the same total, higher percentiles no lower one.
-/
namespace Interleave

variable {samples others : List Sample} {k l : Nat} {key key' : Int} {percentile : Int}

/-! ## Ranks -/

/-- The place of rank `k` among those of the totals: fewer than `k` are below it, and at least `k` are
not above it. -/
structure HasRank (samples : List Sample) (k : Nat) (key : Int) : Prop where
  below : samples.countP (·.total.key < key) < k
  upTo : k ≤ samples.countP (·.total.key ≤ key)

/-- A higher rank has no lower total. -/
theorem HasRank.le (h : HasRank samples k key) (h' : HasRank samples l key') (hkl : k ≤ l) :
    key ≤ key' := by
  by_contra hlt
  have hcount : samples.countP (·.total.key ≤ key') ≤ samples.countP (·.total.key < key) := by
    apply List.countP_mono_left
    intro s _ hs
    simp only [decide_eq_true_eq] at hs ⊢
    omega
  have := h.below
  have := h'.upTo
  omega

/-- One total has a rank. -/
theorem HasRank.unique (h : HasRank samples k key) (h' : HasRank samples k key') : key = key' :=
  Int.le_antisymm (h.le h' (Nat.le_refl k)) (h'.le h (Nat.le_refl k))

/-- The order of the samples does not matter. -/
theorem HasRank.perm (h : HasRank samples k key) (hperm : others.Perm samples) :
    HasRank others k key :=
  ⟨hperm.countP_eq _ ▸ h.below, hperm.countP_eq _ ▸ h.upTo⟩

/-! ## Sorted places -/

theorem pairwise_rankedKeys (samples : List Sample) : (rankedKeys samples).Pairwise (· ≤ ·) := by
  have hsorted : (rankedKeys samples).Pairwise fun a b => decide (a ≤ b) = true := by
    apply List.pairwise_mergeSort
    · intro a b c
      simp only [decide_eq_true_eq]
      omega
    · intro a b
      simp only [Bool.or_eq_true, decide_eq_true_eq]
      omega
  exact hsorted.imp of_decide_eq_true

theorem countP_rankedKeys (p : Int → Bool) :
    (rankedKeys samples).countP p = samples.countP (p ·.total.key) := by
  rw [rankedKeys, (List.mergeSort_perm _ _).countP_eq, List.countP_map]
  rfl

theorem length_rankedKeys (samples : List Sample) : (rankedKeys samples).length = samples.length := by
  rw [rankedKeys, List.length_mergeSort, List.length_map]

/-- In a sorted list nothing after a place is below it, and nothing before it is above it. -/
theorem countP_sorted {before after : List Int} (h : (before ++ key :: after).Pairwise (· ≤ ·)) :
    (before ++ key :: after).countP (· < key) ≤ before.length ∧
      before.length < (before ++ key :: after).countP (· ≤ key) := by
  obtain ⟨-, hlater, hearlier⟩ := List.pairwise_append.1 h
  have hbefore : before.countP (· ≤ key) = before.length :=
    List.countP_eq_length.2 fun a ha => decide_eq_true (hearlier a ha key List.mem_cons_self)
  have hafter : after.countP (· < key) = 0 :=
    List.countP_eq_zero.2 fun a ha => by simpa using (List.pairwise_cons.1 hlater).1 a ha
  have hle : before.countP (· < key) ≤ before.length := List.countP_le_length
  constructor
  · rw [List.countP_append, List.countP_cons_of_neg (by simp), hafter]
    exact hle
  · rw [List.countP_append, List.countP_cons_of_pos (by simp), hbefore]
    omega

/-- What sorting puts at an index has the rank after it, as ranks count from one. -/
theorem hasRank_rankedKeys {i : Nat} (hi : i < (rankedKeys samples).length) :
    HasRank samples (i + 1) (rankedKeys samples)[i] := by
  have hsplit : rankedKeys samples =
      (rankedKeys samples).take i ++ (rankedKeys samples)[i] :: (rankedKeys samples).drop (i + 1) := by
    rw [← List.drop_eq_getElem_cons hi, List.take_append_drop]
  have hcount := countP_sorted (hsplit ▸ pairwise_rankedKeys samples)
  rw [← hsplit, List.length_take_of_le (Nat.le_of_lt hi), countP_rankedKeys, countP_rankedKeys] at hcount
  exact ⟨Nat.lt_succ_of_le hcount.1, hcount.2⟩

/-! ## Percentiles -/

/-- The rank of a percentile: the whole part of that fraction of the samples, and at least one. -/
def percentileRank (count : Nat) (percentile : Int) : Nat := max 1 (count * percentile.toNat / 100)

theorem percentileRank_mono (count : Nat) {p q : Int} (h : p ≤ q) :
    percentileRank count p ≤ percentileRank count q := by
  have hcount : count * p.toNat ≤ count * q.toNat := Nat.mul_le_mul_left count (Int.toNat_le_toNat h)
  have hrank : count * p.toNat / 100 ≤ count * q.toNat / 100 := Nat.div_le_div_right hcount
  unfold percentileRank
  omega

/-- The index of a percentile stands one before its rank, which is never beyond the samples. -/
theorem rankIndex_succ {count : Nat} (hcount : 0 < count) (hp : percentiles percentile) :
    rankIndex count percentile.toNat + 1 = percentileRank count percentile := by
  have hpercent : count * percentile.toNat ≤ count * 100 := by
    apply Nat.mul_le_mul_left
    unfold percentiles at hp
    omega
  unfold rankIndex percentileRank
  omega

/-- The first of its total to arrive. -/
def Sample.FirstIn (sample : Sample) (samples : List Sample) : Prop :=
  ∃ earlier later, samples = earlier ++ sample :: later ∧
    ∀ other ∈ earlier, other.total ≠ sample.total

theorem Sample.FirstIn.mem {sample : Sample} (h : sample.FirstIn samples) : sample ∈ samples := by
  obtain ⟨earlier, later, rfl, -⟩ := h
  simp

/-- The total tells which sample it is. -/
theorem Sample.FirstIn.unique {s t : Sample} (hs : s.FirstIn samples) (ht : t.FirstIn samples)
    (h : s.total = t.total) : s = t := by
  obtain ⟨before, after, rfl, hbefore⟩ := hs
  obtain ⟨before', after', hsplit, hbefore'⟩ := ht
  rcases List.append_eq_append_iff.1 hsplit with ⟨between, rfl, hcons⟩ | ⟨between, rfl, hcons⟩
  · cases between with
    | nil => exact (List.cons.inj hcons).1
    | cons u us =>
      obtain rfl := (List.cons.inj hcons).1
      exact absurd h (hbefore' s (by simp))
  · cases between with
    | nil => exact (List.cons.inj hcons).1.symm
    | cons u us =>
      obtain rfl := (List.cons.inj hcons).1
      exact absurd h.symm (hbefore t (by simp))

/-- A place that was sorted belongs to a sample, and the first of these is found again. -/
theorem exists_find (h : key ∈ rankedKeys samples) :
    ∃ sample, samples.find? (·.total.key = key) = some sample ∧ sample.FirstIn samples ∧
      sample.total.key = key := by
  obtain ⟨s, hs, hkey⟩ := List.mem_map.1 (List.mem_mergeSort.1 h)
  obtain ⟨sample, hfound⟩ : ∃ sample, samples.find? (·.total.key = key) = some sample :=
    Option.isSome_iff_exists.1 (List.find?_isSome.2 ⟨s, hs, decide_eq_true hkey⟩)
  obtain ⟨hsame, earlier, later, hsplit, hearlier⟩ := List.find?_eq_some_iff_append.1 hfound
  have htotal : sample.total.key = key := of_decide_eq_true hsame
  refine ⟨sample, hfound, ⟨earlier, later, hsplit, ?_⟩, htotal⟩
  intro other hother hequal
  have hother := hearlier other hother
  rw [hequal, htotal] at hother
  simp at hother

/-- A percentile of some samples is the first of them whose total has the rank. -/
theorem exists_selectPercentile (hne : samples ≠ []) (hp : percentiles percentile) :
    ∃ sample, selectPercentile samples percentile = .ok sample ∧ sample.FirstIn samples ∧
      HasRank samples (percentileRank samples.length percentile) sample.total.key := by
  have hpos : 0 < samples.length := List.length_pos_of_ne_nil hne
  have hindex : rankIndex samples.length percentile.toNat < (rankedKeys samples).length := by
    rw [length_rankedKeys]
    exact rankIndex_lt hpos _
  obtain ⟨sample, hfound, hfirst, hkey⟩ := exists_find (List.getElem_mem hindex)
  refine ⟨sample, ?_, hfirst, ?_⟩
  · rw [selectPercentile, if_pos hp, List.getElem?_eq_getElem hindex]
    dsimp only
    rw [hfound]
  · rw [hkey, ← rankIndex_succ hpos hp]
    exact hasRank_rankedKeys hindex

/-- Any samples have any percentile. It is a sample whose total has the rank that was asked for, the first
of them to arrive. So the total is the same in any other order of arrival, and a higher percentile has no
lower total. -/
theorem percentile_has_rank (hne : samples ≠ []) (hp : percentiles percentile) :
    ∃ sample, selectPercentile samples percentile = .ok sample ∧ sample.FirstIn samples ∧
      HasRank samples (percentileRank samples.length percentile) sample.total.key ∧
      (∀ others, others.Perm samples → ∃ other,
        selectPercentile others percentile = .ok other ∧ other.total = sample.total) ∧
      ∀ higher, percentiles higher → percentile ≤ higher → ∃ other,
        selectPercentile samples higher = .ok other ∧ sample.total.key ≤ other.total.key := by
  obtain ⟨sample, hselect, hfirst, hrank⟩ := exists_selectPercentile hne hp
  refine ⟨sample, hselect, hfirst, hrank, ?_, ?_⟩
  · intro others hperm
    have hothers : others ≠ [] := fun hnil => hne (List.nil_perm.1 (hnil ▸ hperm))
    obtain ⟨other, hother, -, hrank'⟩ := exists_selectPercentile hothers hp
    rw [hperm.length_eq] at hrank'
    exact ⟨other, hother, Binary64.key_injective (hrank'.unique (hrank.perm hperm))⟩
  · intro higher hhigher hle
    obtain ⟨other, hother, -, hrank'⟩ := exists_selectPercentile hne hhigher
    exact ⟨other, hother, hrank.le hrank' (percentileRank_mono _ hle)⟩

/-- Two NaNs, three zeros and no other total. -/
def zeros : List Sample :=
  [⟨.nan, .nan, .nan⟩, ⟨.nan, .nan, .ofFloat 0.0⟩, ⟨.ofFloat 1.0, .nan, .ofFloat (-0.0)⟩,
    ⟨.ofFloat 2.0, .nan, .ofFloat (-0.0)⟩, ⟨.nan, .nan, .neg .nan⟩]

/-- The NaN with a sign bit is the lowest total, and `-0.0` comes before `0.0`. The first of the two
negative zeros is taken. -/
theorem percentile_has_rank_zeros :
    selectPercentile zeros 60 = .ok ⟨.ofFloat 1.0, .nan, .ofFloat (-0.0)⟩ ∧
      ∃ other, selectPercentile zeros.reverse 60 = .ok other ∧ other.total = .ofFloat (-0.0) := by
  have hne : zeros ≠ [] := by decide
  have hp : percentiles 60 := by decide
  obtain ⟨sample, hselect, hfirst, hrank, hothers, -⟩ := percentile_has_rank hne hp
  have htotal : sample.total = .ofFloat (-0.0) :=
    Binary64.key_injective (hrank.unique ⟨by decide +kernel, by decide +kernel⟩)
  have hsample : sample = ⟨.ofFloat 1.0, .nan, .ofFloat (-0.0)⟩ :=
    hfirst.unique ⟨zeros.take 2, zeros.drop 3, rfl, by decide +kernel⟩ htotal
  exact ⟨hsample ▸ hselect, htotal ▸ hothers zeros.reverse zeros.reverse_perm⟩

end Interleave
