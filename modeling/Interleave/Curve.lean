import Interleave.Config
/-!
# Bandwidth curves

A curve records the bandwidth at some ratios, in ascending order. Between two neighbouring records it
is linear, and outside the recorded range it has no value. `valueAt?`, `blend` and `highest` work on
records over any numbers, so that the same formulas can be read over the rationals.

Results:
* `Curve.ofPoints` builds a curve from points in any order and refuses the first bad point.
* `place_eq_none_iff`: a point finds no place only if its ratio is taken.
-/
namespace Interleave

/-- A bandwidth recorded at a ratio. -/
structure CurvePoint (α : Type) where
  ratio : Nat
  bandwidth : α
  deriving DecidableEq, Repr

namespace CurvePoint

variable {α : Type}

/-- The value at `ratio` on the line through two points, where `num` makes numbers of ratios. -/
def blend [Add α] [Sub α] [Mul α] [Div α] (num : Nat → α) (ratio : Nat) (low high : CurvePoint α) :
    α :=
  let fraction := num (ratio - low.ratio) / num (high.ratio - low.ratio)
  high.bandwidth * fraction + low.bandwidth * (num 1 - fraction)

/-- The value at `ratio` by records in ascending order. -/
def valueAt? [Add α] [Sub α] [Mul α] [Div α] (num : Nat → α) (ratio : Nat) :
    List (CurvePoint α) → Option α
  | [] => none
  | [p] => if ratio = p.ratio then some p.bandwidth else none
  | p :: q :: rest =>
    if ratio = p.ratio then some p.bandwidth
    else if p.ratio < ratio ∧ ratio < q.ratio then some (blend num ratio p q)
    else valueAt? num ratio (q :: rest)

/-- The first of the highest points. -/
def highest [LE α] [DecidableLE α] (first : CurvePoint α) (rest : List (CurvePoint α)) :
    CurvePoint α :=
  rest.foldl (fun best p => if p.bandwidth ≤ best.bandwidth then best else p) first

/-- Puts a point in its place by ratio, if that ratio is free. -/
def place (p : CurvePoint α) : List (CurvePoint α) → Option (List (CurvePoint α))
  | [] => some [p]
  | q :: qs =>
    if p.ratio < q.ratio then some (p :: q :: qs)
    else if q.ratio < p.ratio then (place p qs).map (q :: ·)
    else none

/-- Records in ascending order of ratio. -/
abbrev Ascending (ps : List (CurvePoint α)) : Prop := ps.Pairwise (·.ratio < ·.ratio)

theorem mem_place {p q : CurvePoint α} {ps qs : List (CurvePoint α)} (h : place p ps = some qs) :
    q ∈ qs ↔ q = p ∨ q ∈ ps := by
  induction ps generalizing qs with
  | nil => simp [place] at h; simp [← h]
  | cons r rs ih =>
    simp only [place] at h
    split at h
    · simp at h; simp [← h]
    · split at h
      · obtain ⟨ts, ht, rfl⟩ := Option.map_eq_some_iff.1 h
        simp only [List.mem_cons, ih ht]
        grind
      · cases h

theorem ascending_place {p : CurvePoint α} {ps qs : List (CurvePoint α)} (h : place p ps = some qs)
    (hps : Ascending ps) : Ascending qs := by
  induction ps generalizing qs with
  | nil => simp [place] at h; simp [Ascending, ← h]
  | cons r rs ih =>
    simp only [place] at h
    rw [Ascending, List.pairwise_cons] at hps
    split at h
    · simp only [Option.some.injEq] at h
      subst h
      simp only [Ascending, List.pairwise_cons, List.mem_cons]
      grind
    · split at h
      · obtain ⟨ts, ht, rfl⟩ := Option.map_eq_some_iff.1 h
        simp only [Ascending, List.pairwise_cons]
        refine ⟨fun q hq => ?_, ih ht hps.2⟩
        rcases (mem_place ht).1 hq with rfl | hq
        · assumption
        · exact hps.1 q hq
      · cases h

theorem place_eq_none_iff {p : CurvePoint α} {ps : List (CurvePoint α)} (hps : Ascending ps) :
    place p ps = none ↔ ∃ q ∈ ps, q.ratio = p.ratio := by
  induction ps with
  | nil => simp [place]
  | cons r rs ih =>
    rw [Ascending, List.pairwise_cons] at hps
    simp only [place]
    split
    · simp only [reduceCtorEq, false_iff, List.mem_cons]
      grind
    · split
      · simp only [Option.map_eq_none_iff, ih hps.2, List.mem_cons]
        grind
      · simp only [true_iff]
        exact ⟨r, by simp, by omega⟩

end CurvePoint

/-- A recorded curve: at least one point, ratios in ascending order and at most 100, bandwidths
finite. -/
structure Curve where
  points : List (CurvePoint Float)
  nonempty : points ≠ []
  ascending : CurvePoint.Ascending points
  ratio_le : ∀ p ∈ points, p.ratio ≤ maxRatio
  isFinite : ∀ p ∈ points, p.bandwidth.isFinite = true

namespace Curve

/-- Points that may stand in a curve, perhaps none yet. -/
structure Draft where
  points : List (CurvePoint Float) := []
  ascending : CurvePoint.Ascending points := by simp [CurvePoint.Ascending]
  ratio_le : ∀ p ∈ points, p.ratio ≤ maxRatio := by simp
  isFinite : ∀ p ∈ points, p.bandwidth.isFinite = true := by simp

/-- Adds a point: its ratio must be within range, its bandwidth finite and its ratio new. -/
def Draft.add (d : Draft) (p : CurvePoint Float) : Except ControlFault Draft :=
  if hr : maxRatio < p.ratio then .error (.ratioOutOfRange p.ratio 0 maxRatio)
  else if hf : p.bandwidth.isFinite = true then
    match h : CurvePoint.place p d.points with
    | none => .error (.duplicateRatio p.ratio)
    | some points => .ok
      { points
        ascending := CurvePoint.ascending_place h d.ascending
        ratio_le := fun q hq => by
          rcases (CurvePoint.mem_place h).1 hq with rfl | hq
          · omega
          · exact d.ratio_le q hq
        isFinite := fun q hq => by
          rcases (CurvePoint.mem_place h).1 hq with rfl | hq
          · exact hf
          · exact d.isFinite q hq }
  else .error (.invalidBandwidth p.ratio p.bandwidth)

/-- Adds points one after the other, up to the first bad one. -/
def Draft.addAll (d : Draft) : List (CurvePoint Float) → Except ControlFault Draft
  | [] => .ok d
  | p :: ps => do (← d.add p).addAll ps

/-- The curve through the given points, in any order. -/
def ofPoints (points : List (CurvePoint Float)) : Except ControlFault Curve := do
  let d ← Draft.addAll {} points
  if h : d.points = [] then .error .emptyCurve
  else .ok ⟨d.points, h, d.ascending, d.ratio_le, d.isFinite⟩

def size (c : Curve) : Nat := c.points.length

def minRatio (c : Curve) : Nat := (c.points.head c.nonempty).ratio

def maxRatio (c : Curve) : Nat := (c.points.getLast c.nonempty).ratio

/-- The bandwidth at a ratio, recorded or between two records. -/
def get (c : Curve) (ratio : Nat) : Except ControlFault Float :=
  match CurvePoint.valueAt? Float.ofNat ratio c.points with
  | some x => .ok x
  | none => .error (.ratioOutOfRange ratio c.minRatio c.maxRatio)

/-- The point of the highest bandwidth, and of the smallest ratio among equals. -/
def peak (c : Curve) : CurvePoint Float :=
  CurvePoint.highest (c.points.head c.nonempty) c.points.tail

end Curve

end Interleave
