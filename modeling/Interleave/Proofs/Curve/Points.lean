import Interleave.Curve

/-!
# Points of a curve

A curve is built point by point, each put in its place among those before it. So what it keeps is an
arrangement of the points that were given (`place_perm`), and as ascending lists of the same points are
the same list, the order that they were given in is lost. It shows only in a failure: the first point that
is refused (`Refuses`) ends it all, though whether one is refused is again a matter of the points alone
(`Admissible`).

Results:
* `addAll_perm`: a draft keeps the points that were added to it.
* `addAll_eq_error_iff`, `exists_addAll_iff`: the first refused point ends the building, and points are all
  accepted if they are admissible.
* `ofPoints_eq_ok_iff`, `ofPoints_eq_error_iff`: points make a curve if and only if it is an arrangement of
  them, and fail for their first fault.
* `ofPoints_perm`: the order of the points does not matter.
* `points_make_curve`: when points make a curve, which one, and what is reported if they do not.
-/
namespace Interleave

namespace CurvePoint

variable {α : Type} {p : CurvePoint α} {ps qs : List (CurvePoint α)}

theorem place_perm (h : place p ps = some qs) : qs.Perm (p :: ps) := by
  induction ps generalizing qs with
  | nil =>
    cases h
    exact .refl _
  | cons q ps ih =>
    simp only [place] at h
    split at h
    · cases h
      exact .refl _
    · split at h
      · obtain ⟨rs, hrs, rfl⟩ := Option.map_eq_some_iff.1 h
        exact ((ih hrs).cons q).trans (.swap p q ps)
      · cases h

/-- An ascending list is the only one of its points. -/
theorem Ascending.eq_of_perm (hps : Ascending ps) (hqs : Ascending qs) (h : ps.Perm qs) : ps = qs :=
  h.eq_of_pairwise (fun _ _ _ _ hab hba => absurd hba (Nat.lt_asymm hab)) hps hqs

/-- No two points of an arrangement of an ascending list have the same ratio. -/
theorem Ascending.pairwise_ne (hps : Ascending ps) (h : ps.Perm qs) :
    qs.Pairwise (·.ratio ≠ ·.ratio) :=
  (hps.imp Nat.ne_of_lt).perm h Ne.symm

end CurvePoint

namespace Curve

variable {c : Curve} {d d' : Draft} {p : CurvePoint Float}
  {ps qs earlier : List (CurvePoint Float)} {fault : ControlFault}

theorem eq_of_points {c c' : Curve} (h : c.points = c'.points) : c = c' := by
  cases c
  cases c'
  cases h
  rfl

/-! ## Drafts -/

theorem add_perm (h : d.add p = .ok d') : d'.points.Perm (p :: d.points) := by
  unfold Draft.add at h
  split at h
  · cases h
  · split at h
    · split at h
      · cases h
      · rename_i points hplace
        cases h
        exact CurvePoint.place_perm hplace
    · cases h

/-- A draft keeps the points that were added to it. -/
theorem addAll_perm (h : d.addAll ps = .ok d') : d'.points.Perm (d.points ++ ps) := by
  induction ps generalizing d with
  | nil =>
    cases h
    simp
  | cons p ps ih =>
    rw [Draft.addAll] at h
    cases hadd : d.add p with
    | error fault =>
      rw [hadd] at h
      cases h
    | ok next =>
      rw [hadd] at h
      exact (ih h).trans (((add_perm hadd).append_right ps).trans List.perm_middle.symm)

/-- Why a point is refused after others: it is out of range, or else no number, or else its ratio is
taken. -/
inductive Refuses (earlier : List (CurvePoint Float)) (p : CurvePoint Float) : ControlFault → Prop
  | outOfRange : Interleave.maxRatio < p.ratio →
      Refuses earlier p (.ratioOutOfRange p.ratio 0 Interleave.maxRatio)
  | notFinite : p.ratio ≤ Interleave.maxRatio → p.bandwidth.isFinite = false →
      Refuses earlier p (.invalidBandwidth p.ratio p.bandwidth)
  | repeated : p.ratio ≤ Interleave.maxRatio → p.bandwidth.isFinite = true →
      (∃ q ∈ earlier, q.ratio = p.ratio) → Refuses earlier p (.duplicateRatio p.ratio)

/-- A draft refuses a point for what is wrong with it after the points added so far. -/
theorem add_eq_error_iff (hd : d.points.Perm earlier) :
    d.add p = .error fault ↔ Refuses earlier p fault := by
  have hplace : CurvePoint.place p d.points = none ↔ ∃ q ∈ earlier, q.ratio = p.ratio := by
    simp only [CurvePoint.place_eq_none_iff d.ascending, hd.mem_iff]
  unfold Draft.add
  constructor
  · intro h
    split at h
    · rename_i hratio
      cases h
      exact .outOfRange hratio
    · rename_i hratio
      split at h
      · rename_i hfinite
        split at h
        · rename_i hnone
          cases h
          exact .repeated (Nat.le_of_not_lt hratio) hfinite (hplace.1 hnone)
        · cases h
      · rename_i hfinite
        cases h
        exact .notFinite (Nat.le_of_not_lt hratio) (Bool.eq_false_iff.2 hfinite)
  · intro h
    cases h with
    | outOfRange hratio => rw [dif_pos hratio]
    | notFinite hratio hfinite =>
      rw [dif_neg (Nat.not_lt.2 hratio), dif_neg (Bool.eq_false_iff.1 hfinite)]
    | repeated hratio hfinite htaken =>
      rw [dif_neg (Nat.not_lt.2 hratio), dif_pos hfinite]
      split
      · rfl
      · rename_i hsome
        rw [hplace.2 htaken] at hsome
        cases hsome

theorem addAll_append : d.addAll (ps ++ qs) = (d.addAll ps).bind (·.addAll qs) := by
  induction ps generalizing d with
  | nil => rfl
  | cons p ps ih =>
    rw [List.cons_append, Draft.addAll, Draft.addAll]
    cases d.add p with
    | error fault => rfl
    | ok next => exact ih

/-- The first point that is refused ends it all. -/
theorem addAll_eq_error_iff : d.addAll ps = .error fault ↔ ∃ earlier p later next,
    ps = earlier ++ p :: later ∧ d.addAll earlier = .ok next ∧ next.add p = .error fault := by
  constructor
  · intro h
    induction ps generalizing d with
    | nil => cases h
    | cons p ps ih =>
      rw [Draft.addAll] at h
      cases hadd : d.add p with
      | error fault' =>
        rw [hadd] at h
        cases h
        exact ⟨[], p, ps, d, rfl, rfl, hadd⟩
      | ok next =>
        rw [hadd] at h
        obtain ⟨earlier, q, later, last, rfl, hearlier, hlast⟩ := ih h
        refine ⟨p :: earlier, q, later, last, rfl, ?_, hlast⟩
        rw [Draft.addAll, hadd]
        exact hearlier
  · rintro ⟨earlier, p, later, next, rfl, hearlier, hadd⟩
    rw [addAll_append, hearlier, Except.bind, Draft.addAll, hadd]
    rfl

/-- Points that can stand in one curve, in any order. -/
structure Admissible (points : List (CurvePoint Float)) : Prop where
  ratio_le : ∀ p ∈ points, p.ratio ≤ Interleave.maxRatio
  isFinite : ∀ p ∈ points, p.bandwidth.isFinite = true
  distinct : points.Pairwise (·.ratio ≠ ·.ratio)

/-- No point of an admissible list is refused. -/
theorem Admissible.not_refuses (h : Admissible (earlier ++ p :: ps)) : ¬Refuses earlier p fault := by
  have hmem : p ∈ earlier ++ p :: ps := by simp
  intro hrefuses
  cases hrefuses with
  | outOfRange hratio => exact Nat.not_lt.2 (h.ratio_le p hmem) hratio
  | notFinite _ hfinite => exact Bool.eq_false_iff.1 hfinite (h.isFinite p hmem)
  | repeated _ _ htaken =>
    obtain ⟨q, hq, heq⟩ := htaken
    exact (List.pairwise_append.1 h.distinct).2.2 q hq p List.mem_cons_self heq

/-- Points are all accepted if and only if they and those of the draft can stand in one curve. -/
theorem exists_addAll_iff : (∃ d', d.addAll ps = .ok d') ↔ Admissible (d.points ++ ps) := by
  constructor
  · rintro ⟨d', hall⟩
    have hperm := addAll_perm hall
    exact ⟨fun p hp => d'.ratio_le p (hperm.mem_iff.2 hp), fun p hp => d'.isFinite p (hperm.mem_iff.2 hp),
      d'.ascending.pairwise_ne hperm⟩
  · intro h
    cases hall : d.addAll ps with
    | ok d' => exact ⟨d', rfl⟩
    | error fault =>
      obtain ⟨earlier, p, later, next, rfl, hearlier, hadd⟩ := addAll_eq_error_iff.1 hall
      rw [← List.append_assoc] at h
      exact absurd ((add_eq_error_iff (addAll_perm hearlier)).1 hadd) h.not_refuses

/-! ## Curves -/

/-- The points of a curve are admissible in any order. -/
theorem admissible_of_perm (h : c.points.Perm ps) : Admissible ps :=
  ⟨fun p hp => c.ratio_le p (h.mem_iff.2 hp), fun p hp => c.isFinite p (h.mem_iff.2 hp),
    c.ascending.pairwise_ne h⟩

/-- Points make a curve if and only if it is an arrangement of them. -/
theorem ofPoints_eq_ok_iff : ofPoints ps = .ok c ↔ c.points.Perm ps := by
  unfold ofPoints
  cases hall : Draft.addAll {} ps with
  | error fault =>
    constructor
    · intro h
      cases h
    · intro h
      obtain ⟨d, hok⟩ := (exists_addAll_iff (d := {})).2 (admissible_of_perm h)
      rw [hok] at hall
      cases hall
  | ok d =>
    have hperm := addAll_perm hall
    dsimp only [bind, Except.bind]
    constructor
    · intro h
      split at h
      · cases h
      · cases h
        exact hperm
    · intro h
      have hsame : d.points = c.points := d.ascending.eq_of_perm c.ascending (hperm.trans h.symm)
      rw [dif_neg (hsame ▸ c.nonempty)]
      exact congrArg Except.ok (eq_of_points hsame)

/-- The order of the points does not matter: they make the same curve, or none. -/
theorem ofPoints_perm (h : ps.Perm qs) : (ofPoints ps).toOption = (ofPoints qs).toOption := by
  have hsame (c : Curve) : ofPoints ps = .ok c ↔ ofPoints qs = .ok c := by
    rw [ofPoints_eq_ok_iff, ofPoints_eq_ok_iff]
    exact ⟨fun hc => hc.trans h, fun hc => hc.trans h.symm⟩
  cases hps : ofPoints ps with
  | ok c => rw [(hsame c).1 hps]
  | error fault =>
    cases hqs : ofPoints qs with
    | error fault' => rfl
    | ok c =>
      rw [(hsame c).2 hqs] at hps
      cases hps

/-- Points make some curve if there are any and they are admissible. -/
theorem exists_ofPoints_iff : (∃ c, ofPoints ps = .ok c) ↔ ps ≠ [] ∧ Admissible ps := by
  constructor
  · rintro ⟨c, hc⟩
    have hperm := ofPoints_eq_ok_iff.1 hc
    exact ⟨fun hnil => c.nonempty (List.perm_nil.1 (hnil ▸ hperm)), admissible_of_perm hperm⟩
  · rintro ⟨hne, hadmissible⟩
    obtain ⟨d, hall⟩ := (exists_addAll_iff (d := {})).2 hadmissible
    have hdraft : d.points ≠ [] := fun hnil => hne (List.nil_perm.1 (hnil ▸ addAll_perm hall))
    refine ⟨⟨d.points, hdraft, d.ascending, d.ratio_le, d.isFinite⟩, ?_⟩
    exact ofPoints_eq_ok_iff.2 (addAll_perm hall)

/-- Points make no curve if there are none, and otherwise for what is wrong with the first bad one. -/
theorem ofPoints_eq_error_iff : ofPoints ps = .error fault ↔ ps = [] ∧ fault = .emptyCurve ∨
    ∃ earlier p later, ps = earlier ++ p :: later ∧ Admissible earlier ∧ Refuses earlier p fault := by
  constructor
  · intro h
    cases hall : Draft.addAll {} ps with
    | ok d =>
      cases ps with
      | nil =>
        cases h
        exact .inl ⟨rfl, rfl⟩
      | cons p ps =>
        obtain ⟨c, hc⟩ := exists_ofPoints_iff.2
          ⟨List.cons_ne_nil p ps, (exists_addAll_iff (d := {})).1 ⟨d, hall⟩⟩
        rw [hc] at h
        cases h
    | error fault' =>
      have hfault : ofPoints ps = .error fault' := by
        rw [ofPoints, hall]
        rfl
      rw [hfault] at h
      cases h
      obtain ⟨earlier, p, later, next, rfl, hearlier, hadd⟩ := addAll_eq_error_iff.1 hall
      exact .inr ⟨earlier, p, later, rfl, (exists_addAll_iff (d := {})).1 ⟨next, hearlier⟩,
        (add_eq_error_iff (addAll_perm hearlier)).1 hadd⟩
  · rintro (⟨rfl, rfl⟩ | ⟨earlier, p, later, rfl, hearlier, hrefuses⟩)
    · rfl
    · obtain ⟨next, hnext⟩ := (exists_addAll_iff (d := {})).2 hearlier
      have hadd : next.add p = .error fault := (add_eq_error_iff (addAll_perm hnext)).2 hrefuses
      rw [ofPoints, addAll_eq_error_iff.2 ⟨earlier, p, later, next, rfl, hnext, hadd⟩]
      rfl

/-- Points make a curve if there are any, all in range and finite and no two of one ratio. It has exactly
these points, in ascending order. Otherwise the fault is that of the first bad point in the order of the
list, but in no order do they make a curve. -/
theorem points_make_curve (points : List (CurvePoint Float)) :
    ((∃ c, ofPoints points = .ok c) ↔ points ≠ [] ∧ Admissible points) ∧
    (∀ c, ofPoints points = .ok c →
      c.points.Perm points ∧ c.points.Pairwise (·.ratio < ·.ratio)) ∧
    (∀ fault, ofPoints points = .error fault ↔ points = [] ∧ fault = .emptyCurve ∨
      ∃ earlier p later, points = earlier ++ p :: later ∧ Admissible earlier ∧ Refuses earlier p fault) ∧
    ∀ others : List (CurvePoint Float), others.Perm points →
      (ofPoints others).toOption = (ofPoints points).toOption :=
  ⟨exists_ofPoints_iff, fun c hc => ⟨ofPoints_eq_ok_iff.1 hc, c.ascending⟩,
    fun _ => ofPoints_eq_error_iff, fun _ => ofPoints_perm⟩

/-- A sound point, a repetition of it that is no number, and a point out of range that is none either. -/
def faulty : List (CurvePoint Float) := [⟨10, 1.0⟩, ⟨10, 0.0 / 0.0⟩, ⟨101, 0.0 / 0.0⟩]

/-- The order of the points decides which of them is blamed, and the order of the checks what for. -/
theorem points_make_curve_faulty :
    ofPoints faulty = .error (.invalidBandwidth 10 (0.0 / 0.0)) ∧
      ofPoints faulty.reverse = .error (.ratioOutOfRange 101 0 100) := by
  obtain ⟨-, -, hforward, -⟩ := points_make_curve faulty
  obtain ⟨-, -, hbackward, -⟩ := points_make_curve faulty.reverse
  refine ⟨(hforward _).2 (.inr ⟨[⟨10, 1.0⟩], ⟨10, 0.0 / 0.0⟩, [⟨101, 0.0 / 0.0⟩], rfl, ?_, ?_⟩),
    (hbackward _).2 (.inr ⟨[], ⟨101, 0.0 / 0.0⟩, [⟨10, 0.0 / 0.0⟩, ⟨10, 1.0⟩], rfl, ?_, ?_⟩)⟩
  · exact ⟨by decide, by decide, by decide⟩
  · exact .notFinite (by decide) (by decide)
  · exact ⟨by decide, by decide, by decide⟩
  · exact .outOfRange (by decide)

end Curve

end Interleave
