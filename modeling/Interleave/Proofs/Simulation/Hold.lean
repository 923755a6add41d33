import Interleave.Proofs.Simulation.Course

/-!
# The length of the hold

A run with two curves holds the converged ratio for some points, and then follows the second curve from
rest. The second climb sees nothing of the hold but the number that its first point bears: from the same
state on the same curve it records the same points, with other numbers (`Climbs.later`, `Climbs.unique`).
So the length of the hold moves the second phase and changes nothing else.

Results:
* `Climbs.unique`: a curve and a state have one climb.
* `Climbs.later`: a climb that starts later records the same points, later.
* `hold_only_shifts`: two runs that differ in the hold alone differ in the numbers of the second phase
  alone.
-/
namespace Interleave

/-- The point with a number that is larger by `n`. -/
def TracePoint.later (n : Nat) (p : TracePoint) : TracePoint :=
  { p with iteration := p.iteration + n }

def Observation.later (n : Nat) (o : Observation) : Observation := { o with point := o.point.later n }

/-! ## Climbs -/

namespace Climbs

variable {controller : Controller} {curve : Curve} {phase : Phase} {i : Nat} {state : ControlState}
  {observed observed' : List Observation} {outcome outcome' : Except ControlFault ControlState}

/-- The law leaves a climb no choice. -/
theorem unique (h : Climbs controller curve phase i state observed outcome)
    (h' : Climbs controller curve phase i state observed' outcome') :
    observed' = observed ∧ outcome' = outcome := by
  induction h generalizing observed' with
  | failed hstep =>
    cases h' with
    | failed hstep' => simp_all
    | converged hstep' => simp_all
    | moved hstep' => simp_all
  | converged hstep hratio =>
    cases h' with
    | failed hstep' => simp_all
    | converged hstep' => simp_all
    | moved hstep' hratio' => simp_all
  | moved hstep hratio _ ih =>
    cases h' with
    | failed hstep' => simp_all
    | converged hstep' hratio' => simp_all
    | moved hstep' _ hclimb' =>
      rw [hstep] at hstep'
      cases hstep'
      obtain ⟨rfl, rfl⟩ := ih hclimb'
      exact ⟨rfl, rfl⟩

/-- A climb that starts later records the same points, later. -/
theorem later (h : Climbs controller curve phase i state observed outcome) (n : Nat) :
    Climbs controller curve phase (i + n) state (observed.map (·.later n)) outcome := by
  induction h with
  | failed hstep => exact .failed hstep
  | converged hstep hratio => exact .converged hstep hratio
  | moved hstep hratio _ ih =>
    rw [Nat.add_right_comm] at ih
    exact .moved hstep hratio ih

theorem phase_of_mem (h : Climbs controller curve phase i state observed outcome) {o : Observation}
    (ho : o ∈ observed) : o.point.phase = phase := by
  obtain ⟨k, hk⟩ := List.mem_iff_getElem?.1 ho
  obtain ⟨next, decision, rfl⟩ := h.get hk
  rfl

end Climbs

/-! ## Traces -/

/-- The points of the second phase. -/
def Trace.secondPhase (t : Trace) : List TracePoint := t.points.filter (·.phase = .secondary)

/-- The traces `t` and `t'` of two phases, with holds of `hold` and `hold'` points: they agree up to the
first convergence, and in the second phase but for the numbers of the points, which are as far apart as
the lengths of the holds. -/
structure Trace.ShiftedBy (t t' : Trace) (hold hold' : Nat) : Prop where
  first : ∃ primaryAt, t.primaryConvergedAt = some primaryAt ∧
    t'.primaryConvergedAt = some primaryAt ∧
    t'.points.take (primaryAt + 1) = t.points.take (primaryAt + 1)
  second : t'.secondPhase.map (·.later hold) = t.secondPhase.map (·.later hold')
  switched : ∃ n, t.switchedAt = some (n + hold) ∧ t'.switchedAt = some (n + hold')
  converged : ∃ n, t.secondaryConvergedAt = some (n + hold) ∧
    t'.secondaryConvergedAt = some (n + hold')

namespace Simulator

variable {s : Simulator} {curve : Curve} {climbed observed observed' : List Observation}
  {state final final' : ControlState} {t t' : Trace}

/-- The simulator with a hold of another length. -/
def withHold (s : Simulator) (hold : Nat) : Simulator :=
  { s with config := { s.config with holdIterations := hold }, valid := s.valid }

/-- A run with two curves that succeeds climbs both. -/
theorem exists_climbs_of_ok (hsome : s.secondary = some curve) (h : s.run.result = .ok t) :
    ∃ climbed state observed final,
      Climbs s.controller s.primary .primary 1 s.initial climbed (.ok state) ∧
      Climbs s.controller curve .secondary (s.beforeSwitch climbed state).length state.atRest observed
        (.ok final) ∧
      t = s.bothPhases climbed state observed := by
  have hcourse := course_of_ok h
  generalize s.run.observed = seen at hcourse
  cases hcourse with
  | single hnone =>
    rw [hnone] at hsome
    cases hsome
  | double hsome' hclimb hsecond =>
    rw [hsome'] at hsome
    cases hsome
    exact ⟨_, _, _, _, hclimb, hsecond, rfl⟩

/-- The first phase ends with the hold, and all that is recorded later belongs to the second one. -/
theorem secondPhase_bothPhases
    (hclimb : Climbs s.controller s.primary .primary 1 s.initial climbed (.ok state))
    (hsecond : Climbs s.controller curve .secondary (s.beforeSwitch climbed state).length state.atRest
      observed (.ok final)) :
    (s.bothPhases climbed state observed).secondPhase = observed.map (·.point) := by
  have hbefore : ((s.beforeSwitch climbed state).map (·.point)).filter (·.phase = .secondary) = [] := by
    apply List.filter_eq_nil_iff.2
    intro p hp
    obtain ⟨o, ho, rfl⟩ := List.mem_map.1 hp
    rw [beforeSwitch, List.cons_append, List.mem_cons, List.mem_append] at ho
    rcases ho with rfl | ho | ho
    · simp [first, Observation.record, TracePoint.record]
    · simp [hclimb.phase_of_mem ho]
    · obtain ⟨i, -, rfl⟩ := List.mem_map.1 ho
      simp [Observation.record, TracePoint.record]
  have hafter : (observed.map (·.point)).filter (·.phase = .secondary) = observed.map (·.point) := by
    apply List.filter_eq_self.2
    intro p hp
    obtain ⟨o, ho, rfl⟩ := List.mem_map.1 hp
    simp [hsecond.phase_of_mem ho]
  rw [Trace.secondPhase, bothPhases, Trace.ofObserved, List.map_append, List.filter_append, hbefore,
    hafter, List.nil_append]

/-- The hold shows in the numbers of the second climb alone. -/
theorem later_second_climb {hold : Nat}
    (h : Climbs s.controller curve .secondary (s.beforeSwitch climbed state).length state.atRest
      observed (.ok final))
    (h' : Climbs s.controller curve .secondary ((s.withHold hold).beforeSwitch climbed state).length
      state.atRest observed' (.ok final')) :
    observed'.map (·.later s.config.holdIterations) = observed.map (·.later hold) := by
  have hlater := h.later hold
  have hlater' := h'.later s.config.holdIterations
  have hstart : ((s.withHold hold).beforeSwitch climbed state).length + s.config.holdIterations =
      (s.beforeSwitch climbed state).length + hold := by
    rw [length_beforeSwitch, length_beforeSwitch]
    exact Nat.add_right_comm ..
  rw [hstart] at hlater'
  exact (hlater.unique hlater').1

theorem take_bothPhases (s : Simulator) (climbed : List Observation) (state : ControlState)
    (observed : List Observation) : (s.bothPhases climbed state observed).points.take
      (climbed.length + 1) = (s.first :: climbed).map (·.point) := by
  have hlen : ((s.first :: climbed).map (·.point)).length = climbed.length + 1 := by simp
  rw [bothPhases, Trace.ofObserved, beforeSwitch, List.append_assoc, List.map_append, ← hlen,
    List.take_left]

/-- Two runs with two curves that differ in the hold alone: up to the first convergence their traces are
the same, and the second phase is the same but for its numbers, which are as far apart as the holds. -/
theorem hold_only_shifts (s : Simulator) (hold : Nat) (hsome : s.secondary = some curve)
    (h : s.run.result = .ok t) (h' : (s.withHold hold).run.result = .ok t') :
    t.ShiftedBy t' s.config.holdIterations hold := by
  obtain ⟨climbed, state, observed, final, hclimb, hsecond, rfl⟩ := exists_climbs_of_ok hsome h
  obtain ⟨climbed', state', observed', final', hclimb', hsecond', rfl⟩ :=
    exists_climbs_of_ok (s := s.withHold hold) hsome h'
  -- no hold comes before the first convergence, so the first climbs are one
  obtain ⟨rfl, heq⟩ := hclimb.unique hclimb'
  cases heq
  have hlater := later_second_climb hsecond hsecond'
  have hlen := s.length_beforeSwitch climbed' state
  have hlen' := (s.withHold hold).length_beforeSwitch climbed' state
  have hsame : observed'.length = observed.length := by simpa using congrArg List.length hlater
  obtain ⟨before, decision, hlast⟩ := hsecond.exists_last
  have hpos : observed.length = before.length + 1 := by simp [hlast]
  refine ⟨⟨climbed'.length, rfl, rfl, ?_⟩, ?_, ⟨climbed'.length + 1, ?_, ?_⟩,
    ⟨climbed'.length + observed.length, ?_, ?_⟩⟩
  · rw [take_bothPhases, take_bothPhases]
    rfl
  · have hpoints := congrArg (List.map (·.point)) hlater
    rw [List.map_map, List.map_map] at hpoints
    rw [secondPhase_bothPhases hclimb hsecond, secondPhase_bothPhases hclimb' hsecond', List.map_map,
      List.map_map]
    exact hpoints
  · exact congrArg some hlen
  · exact congrArg some hlen'
  · apply congrArg some
    omega
  · apply congrArg some
    change _ = climbed'.length + 1 + hold at hlen'
    omega

/-- The trace of `rising` without its hold. -/
def promptTrace : Trace where
  points := [
    ⟨0, .primary, 100, 0, 500.0, none⟩,
    ⟨1, .primary, 100, 8, 400.0, some .coldStart⟩,
    ⟨2, .secondary, 92, -8, 500.0, some .coldStart⟩,
    ⟨3, .secondary, 96, 4, 492.0, some .regressing⟩,
    ⟨4, .secondary, 96, 0, 496.0, some .improving⟩]
  primaryConvergedAt := some 1
  switchedAt := some 2
  secondaryConvergedAt := some 4

/-- The first phase ends with a step of 8, which the second one does not go on from, hold or not. -/
theorem hold_only_shifts_rising : rising.run.result = .ok risingTrace ∧
    (rising.withHold 0).run.result = .ok promptTrace ∧ risingTrace.ShiftedBy promptTrace 1 0 := by
  have hprompt : (rising.withHold 0).run.result = .ok promptTrace := by decide +kernel
  exact ⟨rising_run, hprompt, hold_only_shifts rising 0 rfl rising_run hprompt⟩

end Simulator

end Interleave
