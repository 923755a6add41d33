import Interleave.Proofs.Curve.Query
import Mathlib.Order.Interval.Set.UnorderedInterval

/-!
# The line between two records

A query blends two neighbouring records by a formula that works on numbers of any kind. Over the rationals,
where nothing is rounded, the blend is the line through the two records (`line`), and a line goes from one
end to the other without turning. So no answer lies outside of the bandwidths of its neighbours, and none
outside of those of the whole curve. The highest of them is that of the peak, which is a record and not
a blend: a fold keeps the first of the highest records, and they come in ascending order.

Results:
* `blend_eq_line`: a blend is a point of the line.
* `isPeak_highest`: the fold finds the highest record, and of several the one of the smallest ratio.
* `exactAt?_of_between`, `Curve.joins`: what a curve answers between two records with none between them.
* `interpolates_exactly`: all of that, and the bounds of all answers.
-/
namespace Interleave

open Number

namespace CurvePoint

/-! ## Lines -/

section
variable {low high : CurvePoint ℚ} {ratio : Nat}

/-- The line through two points. -/
def line (low high : CurvePoint ℚ) (ratio : Nat) : ℚ :=
  low.bandwidth + (high.bandwidth - low.bandwidth) / (high.ratio - low.ratio) * (ratio - low.ratio)

theorem line_low (low high : CurvePoint ℚ) : line low high low.ratio = low.bandwidth := by
  rw [line, sub_self, mul_zero, add_zero]

theorem line_high (h : low.ratio < high.ratio) : line low high high.ratio = high.bandwidth := by
  have hlt : (low.ratio : ℚ) < high.ratio := by exact_mod_cast h
  rw [line, div_mul_cancel₀ _ (sub_pos.2 hlt).ne', add_sub_cancel]

/-- In exact arithmetic, a blend is a point of the line. -/
theorem blend_eq_line (h : low.ratio < high.ratio) (hlow : low.ratio ≤ ratio) :
    blend Nat.cast ratio low high = line low high ratio := by
  have hlt : (low.ratio : ℚ) < high.ratio := by exact_mod_cast h
  have hspan : (high.ratio : ℚ) - low.ratio ≠ 0 := (sub_pos.2 hlt).ne'
  unfold blend line
  rw [Nat.cast_sub hlow, Nat.cast_sub h.le, Nat.cast_one]
  field_simp
  ring

theorem line_mono (h : low.ratio < high.ratio) (hle : low.bandwidth ≤ high.bandwidth) :
    Monotone (line low high) := by
  intro r r' hr
  have hlt : (low.ratio : ℚ) < high.ratio := by exact_mod_cast h
  have hslope : 0 ≤ (high.bandwidth - low.bandwidth) / (high.ratio - low.ratio) :=
    div_nonneg (sub_nonneg.2 hle) (sub_pos.2 hlt).le
  unfold line
  gcongr

theorem line_anti (h : low.ratio < high.ratio) (hle : high.bandwidth ≤ low.bandwidth) :
    Antitone (line low high) := by
  intro r r' hr
  have hlt : (low.ratio : ℚ) < high.ratio := by exact_mod_cast h
  have hslope : (high.bandwidth - low.bandwidth) / (high.ratio - low.ratio) ≤ 0 :=
    div_nonpos_of_nonpos_of_nonneg (sub_nonpos.2 hle) (sub_pos.2 hlt).le
  have hratio : (r : ℚ) - low.ratio ≤ r' - low.ratio := by gcongr
  unfold line
  gcongr low.bandwidth + ?_
  exact mul_le_mul_of_nonpos_left hratio hslope

/-- A line does not leave the bandwidths of its ends between them. -/
theorem line_mem_uIcc (h : low.ratio < high.ratio) (hlow : low.ratio ≤ ratio)
    (hhigh : ratio ≤ high.ratio) : line low high ratio ∈ Set.uIcc low.bandwidth high.bandwidth := by
  have hmem : ratio ∈ Set.uIcc low.ratio high.ratio := Set.mem_uIcc_of_le hlow hhigh
  have himage : line low high ratio ∈ Set.uIcc (line low high low.ratio) (line low high high.ratio) := by
    rcases le_total low.bandwidth high.bandwidth with hle | hle
    · exact (line_mono h hle).image_uIcc_subset (Set.mem_image_of_mem _ hmem)
    · exact (line_anti h hle).image_uIcc_subset (Set.mem_image_of_mem _ hmem)
  rwa [line_low, line_high h] at himage

end

/-! ## Records with none between them -/

section
variable {α : Type} {ps : List (CurvePoint α)} {low high : CurvePoint α} {ratio : Nat}

/-- Two records, and none with a ratio between theirs. -/
structure Consecutive (ps : List (CurvePoint α)) (low high : CurvePoint α) : Prop where
  low_mem : low ∈ ps
  high_mem : high ∈ ps
  lt : low.ratio < high.ratio
  adjacent : ∀ p ∈ ps, p.ratio ≤ low.ratio ∨ high.ratio ≤ p.ratio

theorem Consecutive.neighbours (h : Consecutive ps low high) (hlow : low.ratio < ratio)
    (hhigh : ratio < high.ratio) : Neighbours ps ratio low high :=
  ⟨h.low_mem, h.high_mem, hlow, hhigh, h.adjacent⟩

theorem Neighbours.consecutive (h : Neighbours ps ratio low high) : Consecutive ps low high :=
  ⟨h.low_mem, h.high_mem, h.low_lt.trans h.lt_high, h.adjacent⟩

end

/-! ## The peak -/

/-- The highest record, and of several the one of the smallest ratio. -/
structure IsPeak (ps : List (CurvePoint Float)) (peak : CurvePoint Float) : Prop where
  mem : peak ∈ ps
  highest : ∀ p ∈ ps, value p.bandwidth ≤ value peak.bandwidth
  first : ∀ p ∈ ps, p.ratio < peak.ratio → value p.bandwidth ≠ value peak.bandwidth

section
variable {ps qs rest : List (CurvePoint Float)} {first p peak : CurvePoint Float}

theorem IsPeak.perm (h : IsPeak ps peak) (hperm : ps.Perm qs) : IsPeak qs peak :=
  ⟨hperm.mem_iff.1 h.mem, fun p hp => h.highest p (hperm.mem_iff.2 hp),
    fun p hp => h.first p (hperm.mem_iff.2 hp)⟩

/-- A peak stays the peak when a record joins that is not above it, nor before it at its height. -/
theorem IsPeak.cons (h : IsPeak ps peak) (hle : value p.bandwidth ≤ value peak.bandwidth)
    (hfirst : p.ratio < peak.ratio → value p.bandwidth ≠ value peak.bandwidth) :
    IsPeak (p :: ps) peak :=
  ⟨List.mem_cons_of_mem p h.mem, List.forall_mem_cons.2 ⟨hle, h.highest⟩,
    List.forall_mem_cons.2 ⟨hfirst, h.first⟩⟩

/-- The fold over ascending records finds the peak. -/
theorem isPeak_highest (hps : Ascending (first :: rest))
    (hfinite : ∀ p ∈ first :: rest, p.bandwidth.isFinite = true) :
    IsPeak (first :: rest) (highest first rest) := by
  -- along the fold, `first` is the highest of the records that are behind
  induction rest generalizing first with
  | nil => exact ⟨List.mem_singleton_self _, by simp [highest], by simp [highest]⟩
  | cons q rest ih =>
    obtain ⟨hlt, hrest⟩ := List.pairwise_cons.1 hps
    obtain ⟨hlt', hlater⟩ := List.pairwise_cons.1 hrest
    obtain ⟨hfirst, hq⟩ := List.forall_mem_cons.1 hfinite
    have hle := le_iff_value_le (hq q List.mem_cons_self) hfirst
    unfold highest at ih ⊢
    rw [List.foldl_cons]
    by_cases hlow : q.bandwidth ≤ first.bandwidth
    · rw [if_pos hlow]
      have hpeak := ih (List.pairwise_cons.2 ⟨fun p hp => hlt p (List.mem_cons_of_mem q hp), hlater⟩)
        (List.forall_mem_cons.2 ⟨hfirst, fun p hp => hq p (List.mem_cons_of_mem q hp)⟩)
      have hbest := hpeak.highest first List.mem_cons_self
      refine (hpeak.cons ((hle.1 hlow).trans hbest) ?_).perm (.swap first q rest)
      intro hbefore heq
      have hsame := le_antisymm hbest (heq ▸ hle.1 hlow)
      exact hpeak.first first List.mem_cons_self ((hlt q List.mem_cons_self).trans hbefore) hsame
    · rw [if_neg hlow]
      have hpeak := ih hrest hq
      have hbelow := (not_le.1 (mt hle.2 hlow)).trans_le (hpeak.highest q List.mem_cons_self)
      exact hpeak.cons hbelow.le fun _ => hbelow.ne

end

end CurvePoint

namespace Curve

open CurvePoint

variable {c : Curve} {low high : CurvePoint Float} {ratio : Nat}

theorem isPeak (c : Curve) : IsPeak c.points c.peak := by
  have hpoints : c.points = c.points.head c.nonempty :: c.points.tail :=
    (List.cons_head_tail c.nonempty).symm
  have hps := c.ascending
  have hfinite := c.isFinite
  unfold peak
  rw [hpoints] at hps hfinite
  have hpeak := isPeak_highest hps hfinite
  rwa [← hpoints] at hpeak

/-! ## Exact answers -/

/-- A record with its bandwidth as a rational number. -/
def rational (p : CurvePoint Float) : CurvePoint ℚ := ⟨p.ratio, value p.bandwidth⟩

/-- The answer at a ratio by the same formula without rounding. -/
def exactAt? (c : Curve) (ratio : Nat) : Option ℚ := valueAt? Nat.cast ratio (c.points.map rational)

theorem ascending_rational (c : Curve) : Ascending (c.points.map rational) :=
  List.pairwise_map.2 c.ascending

theorem exactAt?_of_mem {p : CurvePoint Float} (hp : p ∈ c.points) :
    c.exactAt? p.ratio = some (value p.bandwidth) :=
  valueAt?_of_mem c.ascending_rational (List.mem_map_of_mem hp)

theorem consecutive_rational (h : Consecutive c.points low high) :
    Consecutive (c.points.map rational) (rational low) (rational high) :=
  ⟨List.mem_map_of_mem h.low_mem, List.mem_map_of_mem h.high_mem, h.lt, List.forall_mem_map.2 h.adjacent⟩

/-- From one record to the next, an exact answer is a point of the line through them. -/
theorem exactAt?_of_between (h : Consecutive c.points low high) (hlow : low.ratio ≤ ratio)
    (hhigh : ratio ≤ high.ratio) : c.exactAt? ratio = some (line (rational low) (rational high) ratio) := by
  rcases hlow.eq_or_lt with rfl | hlow
  · rw [exactAt?_of_mem h.low_mem, show low.ratio = (rational low).ratio from rfl, line_low]
    rfl
  rcases hhigh.eq_or_lt with rfl | hhigh
  · rw [exactAt?_of_mem h.high_mem, show high.ratio = (rational high).ratio from rfl,
      line_high (consecutive_rational h).lt]
    rfl
  · rw [exactAt?, valueAt?_of_neighbours c.ascending_rational ((consecutive_rational h).neighbours hlow hhigh),
      blend_eq_line (consecutive_rational h).lt hlow.le]

/-- From one record to another, the exact answers are on the line through them: they lie between the two
bandwidths, and go from one to the other without turning. -/
structure Joins (c : Curve) (low high : CurvePoint Float) : Prop where
  answers : ∀ ratio, low.ratio ≤ ratio → ratio ≤ high.ratio →
    c.exactAt? ratio = some (line (rational low) (rational high) ratio)
  within : ∀ ratio, low.ratio ≤ ratio → ratio ≤ high.ratio →
    line (rational low) (rational high) ratio ∈ Set.uIcc (value low.bandwidth) (value high.bandwidth)
  rises : value low.bandwidth ≤ value high.bandwidth → Monotone (line (rational low) (rational high))
  falls : value high.bandwidth ≤ value low.bandwidth → Antitone (line (rational low) (rational high))

theorem joins (h : Consecutive c.points low high) : c.Joins low high where
  answers _ := exactAt?_of_between h
  within _ := line_mem_uIcc (consecutive_rational h).lt
  rises hle := line_mono (consecutive_rational h).lt hle
  falls hle := line_anti (consecutive_rational h).lt hle

/-- Bounds of all records are bounds of all exact answers. -/
theorem exists_exactAt? {bottom top : ℚ} (hbounds : ∀ p ∈ c.points, value p.bandwidth ∈ Set.Icc bottom top)
    (hmin : c.minRatio ≤ ratio) (hmax : ratio ≤ c.maxRatio) :
    ∃ x ∈ Set.Icc bottom top, c.exactAt? ratio = some x := by
  rcases recorded_or_neighbours hmin hmax with ⟨p, hp, rfl⟩ | ⟨low, high, h⟩
  · exact ⟨_, hbounds p hp, exactAt?_of_mem hp⟩
  · have hjoins := joins h.consecutive
    have hwithin := hjoins.within ratio h.low_lt.le h.lt_high.le
    exact ⟨_, Set.uIcc_subset_Icc (hbounds low h.low_mem) (hbounds high h.high_mem) hwithin,
      hjoins.answers ratio h.low_lt.le h.lt_high.le⟩

/-- In exact arithmetic a curve joins every record to the next by a line. All its answers lie between the
smallest bandwidth that was recorded and that of the peak, which is the first of the highest records. -/
theorem interpolates_exactly (c : Curve) :
    (∀ low high, Consecutive c.points low high → c.Joins low high) ∧
    (∃ lowest ∈ c.points, (∀ p ∈ c.points, value lowest.bandwidth ≤ value p.bandwidth) ∧
      ∀ ratio, c.minRatio ≤ ratio → ratio ≤ c.maxRatio →
        ∃ x, c.exactAt? ratio = some x ∧ value lowest.bandwidth ≤ x ∧ x ≤ value c.peak.bandwidth) ∧
    IsPeak c.points c.peak := by
  obtain ⟨lowest, hmem, hleast⟩ := Set.exists_min_image {p | p ∈ c.points} (fun p => value p.bandwidth)
    c.points.finite_toSet ⟨_, List.head_mem c.nonempty⟩
  refine ⟨fun low high => joins, ⟨lowest, hmem, hleast, ?_⟩, c.isPeak⟩
  intro ratio hmin hmax
  obtain ⟨x, hx, hanswer⟩ := exists_exactAt?
    (fun p hp => ⟨hleast p hp, c.isPeak.highest p hp⟩) hmin hmax
  exact ⟨x, hanswer, hx⟩

/-- Two summits of one height, with a saddle between them. -/
def ridge : Curve where
  points := [⟨10, 128.0⟩, ⟨50, 512.0⟩, ⟨70, 256.0⟩, ⟨90, 512.0⟩]
  nonempty := by decide
  ascending := by decide
  ratio_le := by decide
  isFinite := by decide

/-- Halfway down to the saddle, the answer is halfway between the two bandwidths. Of the summits, the first
is the peak. -/
theorem interpolates_exactly_ridge :
    Consecutive ridge.points ⟨50, 512.0⟩ ⟨70, 256.0⟩ ∧ ridge.exactAt? 60 = some 384 ∧
      IsPeak ridge.points ⟨50, 512.0⟩ := by
  have hdown : Consecutive ridge.points ⟨50, 512.0⟩ ⟨70, 256.0⟩ :=
    ⟨by decide, by decide, by decide, by decide⟩
  have hsummit : ridge.peak = ⟨50, 512.0⟩ := by decide +kernel
  obtain ⟨hjoins, -, hpeak⟩ := interpolates_exactly ridge
  rw [hsummit] at hpeak
  refine ⟨hdown, ?_, hpeak⟩
  rw [(hjoins _ _ hdown).answers 60 (by decide) (by decide)]
  decide +kernel

end Curve

end Interleave
