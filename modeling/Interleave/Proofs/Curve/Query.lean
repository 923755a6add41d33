import Interleave.Proofs.Curve.Points
import Interleave.Proofs.Number.Rounds

/-!
# What a curve answers

Between two records of an ascending list there is one pair of neighbours on either side of a ratio, and a
query finds it: the ratio is recorded, or it lies between neighbours, or outside of all records
(`Answers`). A curve is never empty, so the smallest and the largest ratio of its records bound the
queries that it answers.

Results:
* `answers_valueAt?`: all that a query can find.
* `valueAt?_of_mem`, `valueAt?_of_neighbours`: a record is found as it is, and neighbours are blended.
* `exists_get_iff`, `get_of_outside`: a curve answers within the range of its ratios, and reports the range
  outside of it.
* `follows_points`: what the curve of some points answers.
-/
namespace Interleave

/-! ## Differences -/

namespace Number

variable {a b : Nat}

/-- Where a difference does not stop at zero, its float is the difference of the two numbers. -/
theorem value_ofNat_sub (hab : a ≤ b) (hb : b < 2 ^ 53) : value (Float.ofNat (b - a)) = (b : ℚ) - a := by
  rw [(value_ofNat (by omega)).2, Nat.cast_sub hab]

theorem ofNat_sub_beq_zero (hab : a < b) (hb : b < 2 ^ 53) : (Float.ofNat (b - a) == 0.0) = false := by
  have hzero : (0.0 : Float) = Float.ofNat 0 := rfl
  rw [hzero, Bool.eq_false_iff, Ne, beq_iff_value_eq (value_ofNat (by omega)).1 (value_ofNat (by omega)).1,
    (value_ofNat (by omega)).2, (value_ofNat (by omega)).2, Nat.cast_inj]
  omega

end Number

namespace CurvePoint

variable {α : Type} {ps qs : List (CurvePoint α)} {p q low high low' high' : CurvePoint α} {ratio : Nat}

/-- Two records on either side of a ratio, with no record between them. -/
structure Neighbours (ps : List (CurvePoint α)) (ratio : Nat) (low high : CurvePoint α) : Prop where
  low_mem : low ∈ ps
  high_mem : high ∈ ps
  low_lt : low.ratio < ratio
  lt_high : ratio < high.ratio
  adjacent : ∀ p ∈ ps, p.ratio ≤ low.ratio ∨ high.ratio ≤ p.ratio

/-- What records answer at a ratio: one that was recorded, or what lies between neighbours, or nothing. -/
inductive Answers [Add α] [Sub α] [Mul α] [Div α] (num : Nat → α) (ps : List (CurvePoint α))
    (ratio : Nat) : Option α → Prop
  | recorded {p : CurvePoint α} : p ∈ ps → p.ratio = ratio → Answers num ps ratio (some p.bandwidth)
  | between {low high : CurvePoint α} : Neighbours ps ratio low high →
      Answers num ps ratio (some (blend num ratio low high))
  | below : (∀ p ∈ ps, ratio < p.ratio) → Answers num ps ratio none
  | above : (∀ p ∈ ps, p.ratio < ratio) → Answers num ps ratio none

theorem Ascending.eq_of_ratio (hps : Ascending ps) (hp : p ∈ ps) (hq : q ∈ ps)
    (h : p.ratio = q.ratio) : p = q := by
  have hdistinct : (ps.map (·.ratio)).Nodup := List.pairwise_map.2 (hps.imp Nat.ne_of_lt)
  exact List.inj_on_of_nodup_map hdistinct hp hq h

/-- Nothing is recorded between neighbours. -/
theorem Neighbours.ne (h : Neighbours ps ratio low high) (hp : p ∈ ps) : p.ratio ≠ ratio := by
  have hadjacent := h.adjacent p hp
  have hlow := h.low_lt
  have hhigh := h.lt_high
  omega

/-- Neighbours are the only ones on either side of a ratio. -/
theorem Neighbours.unique (hps : Ascending ps) (h : Neighbours ps ratio low high)
    (h' : Neighbours ps ratio low' high') : low = low' ∧ high = high' := by
  have hlow := h.low_lt
  have hhigh := h.lt_high
  have hlow' := h'.low_lt
  have hhigh' := h'.lt_high
  constructor
  · have hle := h.adjacent low' h'.low_mem
    have hge := h'.adjacent low h.low_mem
    exact hps.eq_of_ratio h.low_mem h'.low_mem (by omega)
  · have hle := h.adjacent high' h'.high_mem
    have hge := h'.adjacent high h.high_mem
    exact hps.eq_of_ratio h.high_mem h'.high_mem (by omega)

theorem Neighbours.perm (h : Neighbours ps ratio low high) (hperm : ps.Perm qs) :
    Neighbours qs ratio low high :=
  ⟨hperm.mem_iff.1 h.low_mem, hperm.mem_iff.1 h.high_mem, h.low_lt, h.lt_high,
    fun p hp => h.adjacent p (hperm.mem_iff.2 hp)⟩

/-- Neighbours stay neighbours when a record is put before all others. -/
theorem Neighbours.cons (h : Neighbours ps ratio low high) (hp : ∀ q ∈ ps, p.ratio < q.ratio) :
    Neighbours (p :: ps) ratio low high where
  low_mem := List.mem_cons_of_mem p h.low_mem
  high_mem := List.mem_cons_of_mem p h.high_mem
  low_lt := h.low_lt
  lt_high := h.lt_high
  adjacent q hq := by
    rcases List.mem_cons.1 hq with rfl | hq
    · exact .inl (Nat.le_of_lt (hp low h.low_mem))
    · exact h.adjacent q hq

section Queries

variable [Add α] [Sub α] [Mul α] [Div α] {num : Nat → α}

/-- All that a query can find. -/
theorem answers_valueAt? (hps : Ascending ps) : Answers num ps ratio (valueAt? num ratio ps) := by
  fun_induction valueAt? num ratio ps with
  | case1 => exact .below (by simp)
  | case2 p h => exact .recorded List.mem_cons_self h.symm
  | case3 p h =>
    rcases Nat.lt_or_gt_of_ne h with hlt | hgt
    · exact .below (by simpa using hlt)
    · exact .above (by simpa using hgt)
  | case4 p q rest h => exact .recorded List.mem_cons_self h.symm
  | case5 p q rest hne h =>
    obtain ⟨hp, hrest⟩ := List.pairwise_cons.1 hps
    refine .between ⟨List.mem_cons_self, by simp, h.1, h.2, ?_⟩
    intro r hr
    rcases List.mem_cons.1 hr with rfl | hr
    · exact .inl (Nat.le_refl _)
    rcases List.mem_cons.1 hr with rfl | hr
    · exact .inr (Nat.le_refl _)
    · exact .inr (Nat.le_of_lt ((List.pairwise_cons.1 hrest).1 r hr))
  | case6 p q rest hne h ih =>
    obtain ⟨hp, hrest⟩ := List.pairwise_cons.1 hps
    have hanswer := ih hrest
    generalize valueAt? num ratio (q :: rest) = answer at hanswer ⊢
    cases hanswer with
    | recorded hr heq => exact .recorded (List.mem_cons_of_mem p hr) heq
    | between hneighbours => exact .between (hneighbours.cons hp)
    | below hbelow =>
      have hq := hbelow q List.mem_cons_self
      exact .below (List.forall_mem_cons.2 ⟨by omega, hbelow⟩)
    | above habove =>
      have hq := habove q List.mem_cons_self
      have hpq := hp q List.mem_cons_self
      exact .above (List.forall_mem_cons.2 ⟨by omega, habove⟩)

theorem valueAt?_of_mem (hps : Ascending ps) (hp : p ∈ ps) :
    valueAt? num p.ratio ps = some p.bandwidth := by
  have hanswer : Answers num ps p.ratio (valueAt? num p.ratio ps) := answers_valueAt? hps
  generalize valueAt? num p.ratio ps = answer at hanswer ⊢
  cases hanswer with
  | recorded hq heq => rw [hps.eq_of_ratio hq hp heq]
  | between h => exact absurd rfl (h.ne hp)
  | below h => exact absurd (h p hp) (Nat.lt_irrefl _)
  | above h => exact absurd (h p hp) (Nat.lt_irrefl _)

theorem valueAt?_of_neighbours (hps : Ascending ps) (h : Neighbours ps ratio low high) :
    valueAt? num ratio ps = some (blend num ratio low high) := by
  have hanswer : Answers num ps ratio (valueAt? num ratio ps) := answers_valueAt? hps
  generalize valueAt? num ratio ps = answer at hanswer ⊢
  cases hanswer with
  | recorded hp heq => exact absurd heq (h.ne hp)
  | between h' =>
    obtain ⟨rfl, rfl⟩ := h.unique hps h'
    rfl
  | below hbelow => exact absurd (hbelow low h.low_mem) (Nat.lt_asymm h.low_lt)
  | above habove => exact absurd (habove high h.high_mem) (Nat.lt_asymm h.lt_high)

end Queries

end CurvePoint

namespace Curve

open CurvePoint

variable {c : Curve} {points : List (CurvePoint Float)} {p low high : CurvePoint Float} {ratio : Nat}

/-! ## The range of a curve -/

theorem minRatio_le (hp : p ∈ c.points) : c.minRatio ≤ p.ratio :=
  (c.ascending.imp (S := (·.ratio ≤ ·.ratio)) Nat.le_of_lt).rel_head hp

theorem le_maxRatio (hp : p ∈ c.points) : p.ratio ≤ c.maxRatio :=
  (c.ascending.imp (S := (·.ratio ≤ ·.ratio)) Nat.le_of_lt).rel_getLast hp

theorem isLeast_minRatio (h : c.points.Perm points) :
    IsLeast {r | ∃ p ∈ points, p.ratio = r} c.minRatio :=
  ⟨⟨_, h.mem_iff.1 (List.head_mem c.nonempty), rfl⟩, fun _ ⟨_, hp, hr⟩ =>
    hr ▸ minRatio_le (h.mem_iff.2 hp)⟩

theorem isGreatest_maxRatio (h : c.points.Perm points) :
    IsGreatest {r | ∃ p ∈ points, p.ratio = r} c.maxRatio :=
  ⟨⟨_, h.mem_iff.1 (List.getLast_mem c.nonempty), rfl⟩, fun _ ⟨_, hp, hr⟩ =>
    hr ▸ le_maxRatio (h.mem_iff.2 hp)⟩

/-! ## Queries -/

theorem answers (c : Curve) (ratio : Nat) :
    Answers Float.ofNat c.points ratio (valueAt? Float.ofNat ratio c.points) :=
  answers_valueAt? c.ascending

theorem get_of_mem (hp : p ∈ c.points) : c.get p.ratio = .ok p.bandwidth := by
  rw [get, valueAt?_of_mem c.ascending hp]

theorem get_of_neighbours (h : Neighbours c.points ratio low high) :
    c.get ratio = .ok (blend Float.ofNat ratio low high) := by
  rw [get, valueAt?_of_neighbours c.ascending h]

theorem get_of_outside (h : ratio < c.minRatio ∨ c.maxRatio < ratio) :
    c.get ratio = .error (.ratioOutOfRange ratio c.minRatio c.maxRatio) := by
  rw [get]
  have hanswer := c.answers ratio
  generalize valueAt? Float.ofNat ratio c.points = answer at hanswer ⊢
  cases hanswer with
  | recorded hp heq =>
    have hmin := minRatio_le hp
    have hmax := le_maxRatio hp
    omega
  | between hneighbours =>
    have hlow := hneighbours.low_lt
    have hhigh := hneighbours.lt_high
    have hmin := minRatio_le hneighbours.low_mem
    have hmax := le_maxRatio hneighbours.high_mem
    omega
  | below => rfl
  | above => rfl

/-- Within its range a curve has a record at every ratio, or one on either side. -/
theorem recorded_or_neighbours (hmin : c.minRatio ≤ ratio) (hmax : ratio ≤ c.maxRatio) :
    (∃ p ∈ c.points, p.ratio = ratio) ∨ ∃ low high, Neighbours c.points ratio low high := by
  have hanswer := c.answers ratio
  generalize valueAt? Float.ofNat ratio c.points = answer at hanswer
  cases hanswer with
  | recorded hp heq => exact .inl ⟨_, hp, heq⟩
  | between h => exact .inr ⟨_, _, h⟩
  | below h => exact absurd (h _ (List.head_mem c.nonempty)) (Nat.not_lt.2 hmin)
  | above h => exact absurd (h _ (List.getLast_mem c.nonempty)) (Nat.not_lt.2 hmax)

/-- There is an answer within the range of the ratios, and only there. -/
theorem exists_get_iff : (∃ x, c.get ratio = .ok x) ↔ c.minRatio ≤ ratio ∧ ratio ≤ c.maxRatio := by
  constructor
  · rintro ⟨x, hx⟩
    by_contra hrange
    rw [get_of_outside (by omega)] at hx
    cases hx
  · rintro ⟨hmin, hmax⟩
    rcases recorded_or_neighbours hmin hmax with ⟨p, hp, rfl⟩ | ⟨low, high, hneighbours⟩
    · exact ⟨_, get_of_mem hp⟩
    · exact ⟨_, get_of_neighbours hneighbours⟩

/-- A curve answers as its points say: with what was recorded, on the line between two neighbours, and
within the range of the ratios alone. -/
structure Follows (c : Curve) (points : List (CurvePoint Float)) : Prop where
  least : IsLeast {r | ∃ p ∈ points, p.ratio = r} c.minRatio
  greatest : IsGreatest {r | ∃ p ∈ points, p.ratio = r} c.maxRatio
  answers_iff : ∀ ratio, (∃ x, c.get ratio = .ok x) ↔ c.minRatio ≤ ratio ∧ ratio ≤ c.maxRatio
  recorded : ∀ p ∈ points, c.get p.ratio = .ok p.bandwidth
  /-- Where nothing is recorded, there are records on either side. -/
  between : ∀ ratio, c.minRatio ≤ ratio → ratio ≤ c.maxRatio → (∀ p ∈ points, p.ratio ≠ ratio) →
    ∃ low high, Neighbours points ratio low high
  blended : ∀ ratio low high fraction, Neighbours points ratio low high →
    fraction = Float.ofNat (ratio - low.ratio) / Float.ofNat (high.ratio - low.ratio) →
      c.get ratio = .ok (high.bandwidth * fraction + low.bandwidth * (1.0 - fraction))
  /-- The differences are those of the integers, and the one that divides is not zero. -/
  proper : ∀ ratio low high, Neighbours points ratio low high →
    Number.value (Float.ofNat (ratio - low.ratio)) = (ratio : ℚ) - low.ratio ∧
      Number.value (Float.ofNat (high.ratio - low.ratio)) = (high.ratio : ℚ) - low.ratio ∧
      (Float.ofNat (high.ratio - low.ratio) == 0.0) = false
  outside : ∀ ratio, ratio < c.minRatio ∨ c.maxRatio < ratio →
    c.get ratio = .error (.ratioOutOfRange ratio c.minRatio c.maxRatio)

/-- The curve of some points follows them. -/
theorem follows_points (h : ofPoints points = .ok c) : c.Follows points := by
  have hperm : c.points.Perm points := ofPoints_eq_ok_iff.1 h
  refine ⟨isLeast_minRatio hperm, isGreatest_maxRatio hperm, fun _ => exists_get_iff,
    fun p hp => get_of_mem (hperm.mem_iff.2 hp), ?_, ?_, ?_, fun _ => get_of_outside⟩
  · intro ratio hmin hmax hnew
    rcases recorded_or_neighbours hmin hmax with ⟨p, hp, heq⟩ | ⟨low, high, hneighbours⟩
    · exact absurd heq (hnew p (hperm.mem_iff.1 hp))
    · exact ⟨low, high, hneighbours.perm hperm⟩
  · rintro ratio low high fraction hneighbours rfl
    exact get_of_neighbours (hneighbours.perm hperm.symm)
  · intro ratio low high hneighbours
    have hlow := hneighbours.low_lt
    have hhigh := hneighbours.lt_high
    have hle : high.ratio ≤ 100 := c.ratio_le high (hperm.mem_iff.2 hneighbours.high_mem)
    exact ⟨Number.value_ofNat_sub (by omega) (by omega), Number.value_ofNat_sub (by omega) (by omega),
      Number.ofNat_sub_beq_zero (by omega) (by omega)⟩

/-- Three points, the lowest with a negative zero. -/
def hump : List (CurvePoint Float) := [⟨90, 256.0⟩, ⟨10, -0.0⟩, ⟨50, 512.0⟩]

/-- The zero keeps its sign, a quarter of the way from it to the peak is a quarter of the peak, and beyond the
last record there is no answer. -/
theorem follows_points_hump : ∃ c, ofPoints hump = .ok c ∧ c.get 10 = .ok (-0.0) ∧
    c.get 20 = .ok 128.0 ∧ c.get 255 = .error (.ratioOutOfRange 255 10 90) := by
  have hcurve : ofPoints hump = .ok ⟨[⟨10, -0.0⟩, ⟨50, 512.0⟩, ⟨90, 256.0⟩], by decide, by decide,
      by decide, by decide⟩ := ofPoints_eq_ok_iff.2 (by decide)
  have hfollows := follows_points hcurve
  have hquarter := hfollows.blended 20 ⟨10, -0.0⟩ ⟨50, 512.0⟩ 0.25
    ⟨by decide, by decide, by decide, by decide, by decide⟩ (by decide +kernel)
  refine ⟨_, hcurve, hfollows.recorded ⟨10, -0.0⟩ (by decide), ?_,
    hfollows.outside 255 (.inr (by decide))⟩
  rw [hquarter]
  decide +kernel

end Curve

end Interleave
