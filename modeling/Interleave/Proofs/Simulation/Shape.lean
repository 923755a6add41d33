import Interleave.Proofs.Simulation.Course
import Mathlib.Order.Bounds.Basic

/-!
# The shape of a trace

Where a run succeeds, its trace says by positions alone what happened: the points are numbered, the
markers are the first places where a ratio repeats, and what lies between them is fixed but for the
curves and the control law.

Results:
* `isLeast_repeats`: a climb converges where the ratio repeats for the first time.
* `run_shape`: the shape of every trace, with one curve (`SinglePhase`) or two (`TwoPhases`).
-/
namespace Interleave

/-- The ratio of point `i` is that of the point before. -/
def RepeatsAt (points : List TracePoint) (i : Nat) : Prop :=
  ∃ before here, points[i - 1]? = some before ∧ points[i]? = some here ∧ here.ratio = before.ratio

theorem repeatsAt_map {observed : List Observation} {i : Nat} :
    RepeatsAt (observed.map (·.point)) i ↔ ∃ before here, observed[i - 1]? = some before ∧
      observed[i]? = some here ∧ here.point.ratio = before.point.ratio := by
  simp only [RepeatsAt, List.getElem?_map, Option.map_eq_some_iff]
  constructor
  · rintro ⟨_, _, ⟨before, hb, rfl⟩, ⟨here, hh, rfl⟩, hratio⟩
    exact ⟨before, here, hb, hh, hratio⟩
  · rintro ⟨before, here, hb, hh, hratio⟩
    exact ⟨_, _, ⟨before, hb, rfl⟩, ⟨here, hh, rfl⟩, hratio⟩

/-! ## Positions in a climb -/

section
variable {controller : Controller} {curve : Curve} {phase : Phase} {i : Nat}
  {state final : ControlState} {observed : List Observation}

/-- A climb that follows `start` converges where the ratio repeats for the first time after it,
whatever else is observed before and later. -/
theorem isLeast_repeats (h : Climbs controller curve phase i state observed (.ok final))
    (front later : List Observation) {start : Observation}
    (hstart : start.point.ratio = state.ratio) :
    IsLeast {k | front.length + 1 ≤ k ∧
      RepeatsAt ((front ++ start :: observed ++ later).map (·.point)) k}
      (front.length + observed.length) := by
  have hget (k : Nat) (hk : k ≤ observed.length) :
      (front ++ start :: observed ++ later)[front.length + k]? = (start :: observed)[k]? := by
    rw [List.getElem?_append_left (by simp; omega), List.getElem?_append_right (by omega),
      Nat.add_sub_cancel_left]
  have hpos : 0 < observed.length := by
    obtain ⟨before, decision, rfl⟩ := h.exists_last
    simp
  constructor
  · refine ⟨by omega, repeatsAt_map.2 ?_⟩
    obtain ⟨n, hn⟩ : ∃ n, observed.length = n + 1 := ⟨_, (Nat.sub_one_add_one_eq_of_pos hpos).symm⟩
    obtain ⟨before, hbefore⟩ : ∃ before, (start :: observed)[n]? = some before :=
      ⟨_, List.getElem?_eq_getElem (by simp; omega)⟩
    obtain ⟨here, hhere⟩ : ∃ here, observed[n]? = some here :=
      ⟨_, List.getElem?_eq_getElem (by omega)⟩
    refine ⟨before, here, ?_, ?_, (h.repeats_iff hstart hbefore hhere).2 hn.symm⟩
    · rw [hn, ← Nat.add_assoc, Nat.add_sub_cancel, hget _ (by omega), hbefore]
    · rw [hn, hget _ (by omega), List.getElem?_cons_succ, hhere]
  · rintro k ⟨hk, hrepeats⟩
    obtain ⟨n, rfl⟩ : ∃ n, k = front.length + (n + 1) := ⟨k - front.length - 1, by omega⟩
    by_contra hlt
    obtain ⟨before, here, hb, hh, hratio⟩ := repeatsAt_map.1 hrepeats
    rw [← Nat.add_assoc, Nat.add_sub_cancel, hget _ (by omega)] at hb
    rw [hget _ (by omega), List.getElem?_cons_succ] at hh
    have := (h.repeats_iff hstart hb hh).1 hratio
    omega

end

/-! ## Positions in a run -/

namespace Simulator

variable {s : Simulator} {curve : Curve} {climbed observed : List Observation}
  {state final : ControlState} {here : Observation} {k : Nat}

/-- Where a point stands that is observed up to the first convergence. -/
theorem get_first_phase (h : (s.first :: climbed)[k]? = some here) :
    k = 0 ∧ here = s.first ∨ ∃ j, k = j + 1 ∧ climbed[j]? = some here := by
  cases k with
  | zero => exact .inl ⟨rfl, (Option.some.inj h).symm⟩
  | succ j => exact .inr ⟨j, rfl, h⟩

theorem holdPoints_get {phase : Phase} {iteration count : Nat}
    (h : (holdPoints phase state iteration count)[k]? = some here) :
    here = .record (iteration + k) phase state none := by
  obtain ⟨n, hn, rfl⟩ := Option.map_eq_some_iff.1 (List.getElem?_map.symm.trans h)
  obtain ⟨hk, rfl⟩ := List.getElem?_eq_some_iff.1 hn
  simp

theorem get_of_le (h : k ≤ climbed.length) :
    (s.beforeSwitch climbed state ++ observed)[k]? = (s.first :: climbed)[k]? := by
  rw [beforeSwitch, List.append_assoc, List.getElem?_append_left (Nat.lt_succ_of_le h)]

/-- Where a point stands in a run of two phases. -/
theorem get_both_phases (h : (s.beforeSwitch climbed state ++ observed)[k]? = some here) :
    (k ≤ climbed.length ∧ (s.first :: climbed)[k]? = some here) ∨
      (climbed.length < k ∧ k < (s.beforeSwitch climbed state).length ∧
        here = .record k .primary state.atRest none) ∨
      ∃ j, k = (s.beforeSwitch climbed state).length + j ∧ observed[j]? = some here := by
  rcases Nat.lt_or_ge k (s.beforeSwitch climbed state).length with hk | hk
  · rw [List.getElem?_append_left hk, beforeSwitch] at h
    rcases Nat.lt_or_ge climbed.length k with hlt | hle
    · rw [List.getElem?_append_right hlt] at h
      have heq := holdPoints_get h
      rw [List.length_cons, Nat.add_sub_cancel' hlt] at heq
      exact .inr (.inl ⟨hlt, hk, heq⟩)
    · rw [List.getElem?_append_left (Nat.lt_succ_of_le hle)] at h
      exact .inl ⟨hle, h⟩
  · rw [List.getElem?_append_right hk] at h
    exact .inr (.inr ⟨_, (Nat.add_sub_cancel' hk).symm, h⟩)

/-- The second phase starts from the last point before it, at rest: the last point of the hold or, if
there is none, the point of the convergence. -/
theorem exists_last_beforeSwitch
    (hclimb : Climbs s.controller s.primary .primary 1 s.initial climbed (.ok state)) :
    ∃ front start, s.beforeSwitch climbed state = front ++ [start] ∧
      start.point.state.atRest = state.atRest := by
  cases hhold : s.config.holdIterations with
  | zero =>
    obtain ⟨before, decision, rfl⟩ := hclimb.exists_last
    refine ⟨s.first :: before, .record (1 + before.length) .primary state (some decision), ?_, rfl⟩
    rw [beforeSwitch, hhold]
    simp [holdPoints]
  | succ n =>
    refine ⟨s.first :: climbed ++ holdPoints .primary state.atRest (climbed.length + 1) n,
      .record (climbed.length + 1 + n) .primary state.atRest none, ?_, rfl⟩
    rw [beforeSwitch, hhold]
    simp [holdPoints, List.range'_1_concat]

/-- Points up to the first convergence are those of the first phase, all but the first with a
decision. -/
theorem recorded_first_phase {outcome : Except ControlFault ControlState}
    (hclimb : Climbs s.controller s.primary .primary 1 s.initial climbed outcome)
    (h : (s.first :: climbed)[k]? = some here) :
    ∃ state decision, here = .record k .primary state decision ∧ (decision = none ↔ k = 0) := by
  rcases get_first_phase h with ⟨rfl, rfl⟩ | ⟨j, rfl, hj⟩
  · exact ⟨s.initial, none, rfl, by simp⟩
  · obtain ⟨next, decision, rfl⟩ := hclimb.get hj
    exact ⟨next, some decision, by rw [Nat.add_comm], by simp⟩

/-- Points of both phases, where the first climb has converged. -/
theorem recorded_both_phases {outcome outcome' : Except ControlFault ControlState}
    (hclimb : Climbs s.controller s.primary .primary 1 s.initial climbed outcome)
    (hsecond : Climbs s.controller curve .secondary (s.beforeSwitch climbed state).length
      state.atRest observed outcome')
    (h : (s.beforeSwitch climbed state ++ observed)[k]? = some here) :
    ∃ phase state' decision, here = .record k phase state' decision ∧
      phase = (if k < (s.beforeSwitch climbed state).length then .primary else .secondary) ∧
      (decision = none ↔
        k = 0 ∨ climbed.length < k ∧ k < (s.beforeSwitch climbed state).length) := by
  have hlen := s.length_beforeSwitch climbed state
  rcases get_both_phases h with ⟨hk, hearly⟩ | ⟨hlo, hhi, rfl⟩ | ⟨j, rfl, hlate⟩
  · obtain ⟨next, decision, rfl, hnone⟩ := recorded_first_phase hclimb hearly
    exact ⟨.primary, next, decision, rfl, by rw [if_pos (by omega)], by rw [hnone]; omega⟩
  · exact ⟨.primary, state.atRest, none, rfl, by rw [if_pos hhi], by simp [hlo, hhi]⟩
  · obtain ⟨next, decision, rfl⟩ := hsecond.get hlate
    exact ⟨.secondary, next, some decision, rfl, by rw [if_neg (by omega)],
      iff_of_false (by simp) (by omega)⟩

end Simulator

/-! ## The shape of a trace -/

/-- What holds of every trace: the points are numbered from 0 and start as configured, the first
phase converges where a ratio repeats for the first time, and `observed` is what was reported, point
by point, with a decision where the point has its rule. -/
structure Trace.Shape (t : Trace) (s : Simulator) (observed : List Observation)
    (primaryAt : Nat) : Prop where
  iteration : ∀ (k : Nat) (p : TracePoint), t.points[k]? = some p → p.iteration = k
  start : t.points[0]? =
    some ⟨0, .primary, s.config.initialRatio, 0, s.config.initialBandwidth, none⟩
  primary : t.primaryConvergedAt = some primaryAt
  first : IsLeast {k | 1 ≤ k ∧ RepeatsAt t.points k} primaryAt
  reported : t.points = observed.map (·.point)
  decided : ∀ o ∈ observed, o.point.rule = o.decision.map (·.rule)

theorem Trace.Shape.of_withCap {t : Trace} {s : Simulator} {observed : List Observation}
    {primaryAt cap : Nat} {hcap : 0 < cap} (h : t.Shape (s.withCap cap hcap) observed primaryAt) :
    t.Shape s observed primaryAt :=
  ⟨h.iteration, h.start, h.primary, h.first, h.reported, h.decided⟩

/-- A trace of one curve ends where it converges. -/
structure Trace.SinglePhase (t : Trace) (primaryAt : Nat) : Prop where
  last : primaryAt + 1 = t.points.length
  switched : t.switchedAt = none
  secondary : t.secondaryConvergedAt = none
  phase : ∀ p ∈ t.points, p.phase = .primary
  rule : ∀ (k : Nat) (p : TracePoint), t.points[k]? = some p → (p.rule = none ↔ k = 0)

/-- A trace of two curves holds the ratio of the first convergence, and ends where the ratio repeats
for the first time after the switch. -/
structure Trace.TwoPhases (t : Trace) (primaryAt switchedAt secondaryAt : Nat) : Prop where
  switched : t.switchedAt = some switchedAt
  secondary : t.secondaryConvergedAt = some secondaryAt
  second : IsLeast {k | switchedAt ≤ k ∧ RepeatsAt t.points k} secondaryAt
  last : secondaryAt + 1 = t.points.length
  phase : ∀ (k : Nat) (p : TracePoint), t.points[k]? = some p →
    p.phase = if k < switchedAt then .primary else .secondary
  held : ∃ c, t.points[primaryAt]? = some c ∧ ∀ k, primaryAt < k → k < switchedAt →
    t.points[k]? = some ⟨k, .primary, c.ratio, 0, c.bandwidth, none⟩
  rule : ∀ (k : Nat) (p : TracePoint), t.points[k]? = some p →
    (p.rule = none ↔ k = 0 ∨ primaryAt < k ∧ k < switchedAt)

/-- The phases of a trace, with one curve or two. -/
def Trace.Phases (t : Trace) (s : Simulator) (primaryAt : Nat) : Prop :=
  match s.secondary with
  | none => t.SinglePhase primaryAt
  | some _ => ∃ secondaryAt,
    t.TwoPhases primaryAt (primaryAt + 1 + s.config.holdIterations) secondaryAt

namespace Simulator

variable {s : Simulator} {curve : Curve} {climbed observed : List Observation}
  {state final : ControlState}

/-- Points that are numbered and start as configured have the common shape. -/
theorem shape_of_recorded {primaryAt : Nat} {switchedAt secondaryAt : Option Nat}
    (hrecord : ∀ (k : Nat) (here : Observation), observed[k]? = some here →
      ∃ phase state decision, here = .record k phase state decision)
    (hfirst : observed[0]? = some s.first)
    (hleast : IsLeast {k | 1 ≤ k ∧ RepeatsAt (observed.map (·.point)) k} primaryAt) :
    (Trace.ofObserved observed (some primaryAt) switchedAt secondaryAt).Shape s observed
      primaryAt where
  iteration := by
    intro k p hp
    obtain ⟨here, hhere, rfl⟩ := Option.map_eq_some_iff.1 (List.getElem?_map.symm.trans hp)
    obtain ⟨phase, state, decision, rfl⟩ := hrecord k here hhere
    rfl
  start := by
    rw [Trace.ofObserved, List.getElem?_map, hfirst]
    rfl
  primary := rfl
  first := hleast
  reported := rfl
  decided := by
    intro o ho
    obtain ⟨k, hk⟩ := List.mem_iff_getElem?.1 ho
    obtain ⟨phase, state, decision, rfl⟩ := hrecord k o hk
    rfl

/-- The point of an observation at a position. -/
theorem get_point {k : Nat} {p : TracePoint} {primaryAt switchedAt secondaryAt : Option Nat}
    (h : (Trace.ofObserved observed primaryAt switchedAt secondaryAt).points[k]? = some p) :
    ∃ here, observed[k]? = some here ∧ here.point = p :=
  Option.map_eq_some_iff.1 (List.getElem?_map.symm.trans h)

theorem rule_record {k : Nat} {phase : Phase} {state : ControlState} {decision : Option Decision} :
    (Observation.record k phase state decision).point.rule = none ↔ decision = none := by
  simp [Observation.record, TracePoint.record]

section
variable (hclimb : Climbs s.controller s.primary .primary 1 s.initial climbed (.ok state))
include hclimb

theorem single_shape :
    (Trace.ofObserved (s.first :: climbed) (some climbed.length) none none).Shape s
      (s.first :: climbed) climbed.length := by
  have hleast := isLeast_repeats hclimb [] [] (congrArg ControlState.ratio (state_first s))
  refine shape_of_recorded ?_ rfl (by simpa using hleast)
  intro k here h
  obtain ⟨state, decision, rfl, -⟩ := recorded_first_phase hclimb h
  exact ⟨_, _, _, rfl⟩

theorem single_singlePhase :
    (Trace.ofObserved (s.first :: climbed) (some climbed.length) none none).SinglePhase
      climbed.length where
  last := by simp [Trace.ofObserved]
  switched := rfl
  secondary := rfl
  phase := by
    intro p hp
    obtain ⟨k, hk⟩ := List.mem_iff_getElem?.1 hp
    obtain ⟨here, hhere, rfl⟩ := get_point hk
    obtain ⟨state, decision, rfl, -⟩ := recorded_first_phase hclimb hhere
    rfl
  rule := by
    intro k p hp
    obtain ⟨here, hhere, rfl⟩ := get_point hp
    obtain ⟨state, decision, rfl, hnone⟩ := recorded_first_phase hclimb hhere
    rw [rule_record, hnone]

/-- The hold shows the point of the convergence again, without its step and rule. -/
theorem held_both : ∃ c, (s.bothPhases climbed state observed).points[climbed.length]? = some c ∧
    ∀ k, climbed.length < k → k < (s.beforeSwitch climbed state).length →
      (s.bothPhases climbed state observed).points[k]? =
        some ⟨k, .primary, c.ratio, 0, c.bandwidth, none⟩ := by
  obtain ⟨before, last, hclimbed⟩ := hclimb.exists_last
  have hconverged : (s.beforeSwitch climbed state ++ observed)[climbed.length]? =
      some (.record (1 + before.length) .primary state (some last)) := by
    rw [get_of_le le_rfl, hclimbed]
    simp
  refine ⟨_, by rw [bothPhases, Trace.ofObserved, List.getElem?_map, hconverged]; rfl, ?_⟩
  intro k hlo hhi
  obtain ⟨here, hhere⟩ : ∃ here, (s.beforeSwitch climbed state ++ observed)[k]? = some here :=
    ⟨_, List.getElem?_eq_getElem (by rw [List.length_append]; omega)⟩
  rw [bothPhases, Trace.ofObserved, List.getElem?_map, hhere]
  rcases get_both_phases hhere with ⟨hk, -⟩ | ⟨-, -, rfl⟩ | ⟨j, rfl, -⟩
  · omega
  · rfl
  · omega

variable (hsecond : Climbs s.controller curve .secondary (s.beforeSwitch climbed state).length
  state.atRest observed (.ok final))
include hsecond

theorem double_shape : (s.bothPhases climbed state observed).Shape s
    (s.beforeSwitch climbed state ++ observed) climbed.length := by
  have hfirst := isLeast_repeats hclimb [] (holdPoints .primary state.atRest (climbed.length + 1)
    s.config.holdIterations ++ observed) (congrArg ControlState.ratio (state_first s))
  refine shape_of_recorded ?_ rfl (by simpa [beforeSwitch] using hfirst)
  intro k here h
  obtain ⟨phase, state, decision, rfl, -⟩ := recorded_both_phases hclimb hsecond h
  exact ⟨_, _, _, rfl⟩

/-- The second climb starts from the last point before the switch, so the first ratio that it can
repeat is that of its own first point. -/
theorem isLeast_second : IsLeast {k | (s.beforeSwitch climbed state).length ≤ k ∧
    RepeatsAt (s.bothPhases climbed state observed).points k}
    ((s.beforeSwitch climbed state).length + observed.length - 1) := by
  obtain ⟨front, start, hfront, hstart⟩ := exists_last_beforeSwitch hclimb
  have hleast := isLeast_repeats hsecond front [] (congrArg ControlState.ratio hstart)
  have hlast : (s.beforeSwitch climbed state).length + observed.length - 1 =
      front.length + observed.length := by
    rw [hfront, List.length_append, List.length_singleton]
    omega
  rw [hlast]
  simpa [bothPhases, Trace.ofObserved, hfront] using hleast

theorem double_twoPhases : (s.bothPhases climbed state observed).TwoPhases climbed.length
    (s.beforeSwitch climbed state).length
    ((s.beforeSwitch climbed state).length + observed.length - 1) where
  switched := rfl
  secondary := rfl
  second := isLeast_second hclimb hsecond
  last := by
    have hlen := s.length_beforeSwitch climbed state
    simp only [bothPhases, Trace.ofObserved, List.length_map, List.length_append]
    omega
  phase := by
    intro k p hp
    obtain ⟨here, hhere, rfl⟩ := get_point hp
    obtain ⟨phase, state', decision, rfl, hphase, -⟩ := recorded_both_phases hclimb hsecond hhere
    exact hphase
  held := held_both hclimb
  rule := by
    intro k p hp
    obtain ⟨here, hhere, rfl⟩ := get_point hp
    obtain ⟨phase, state', decision, rfl, -, hnone⟩ := recorded_both_phases hclimb hsecond hhere
    rw [rule_record, hnone]

end

theorem Course.shape {t : Trace} (h : s.Course observed (.ok t)) :
    ∃ primaryAt, t.Shape s observed primaryAt ∧ t.Phases s primaryAt := by
  unfold Trace.Phases
  cases h with
  | single hnone hclimb =>
    rw [hnone]
    exact ⟨_, single_shape hclimb, single_singlePhase hclimb⟩
  | double hsome hclimb hsecond =>
    have htwo := double_twoPhases hclimb hsecond
    rw [length_beforeSwitch] at htwo
    rw [hsome]
    exact ⟨_, double_shape hclimb hsecond, _, htwo⟩

/-- The shape of every trace. -/
theorem run_shape {t : Trace} (h : s.run.result = .ok t) :
    ∃ primaryAt, t.Shape s s.run.observed primaryAt ∧ t.Phases s primaryAt :=
  (course_of_ok h).shape

/-- The first convergence is a step that clamping left without effect, and the hold has one point. -/
theorem run_shape_rising :
    risingTrace.Shape rising rising.run.observed 1 ∧ risingTrace.TwoPhases 1 3 5 := by
  obtain ⟨primaryAt, hshape, secondaryAt, htwo⟩ := run_shape rising_run
  obtain rfl : 1 = primaryAt := Option.some.inj hshape.primary
  obtain rfl : 5 = secondaryAt := Option.some.inj htwo.secondary
  exact ⟨hshape, htwo⟩

end Simulator

end Interleave
