import Interleave.Proofs.Controller.Steps
import Interleave.Proofs.Simulation.Course

/-!
# Convergence

Whatever a curve does, a climb ends. Between two reversals of the law the ratio sweeps its range once
downwards and once upwards at most, by steps that leave the dead zone: only the escape from a low
bandwidth turns a sweep, and only upwards. A reversal halves the step, no other rule enlarges it, and
a step can be halved as often only as its size has binary digits. So every move lowers a `potential`:
the halvings that are left, each worth two sweeps, and what is left of the present ones.

This takes a rounding that makes a half smaller (`Halves`): to the nearest integer, half of 1 is 1
again, and only a dead zone of 2 or more stops it.

Results:
* `potential_lt`: every iteration that moves the ratio lowers the potential.
* `exists_climbs`: every climb from rest ends within `climbBound` points.
* `run_converges`: no phase takes more points, and with a cap of two climbs and the hold no run times
  out; with the configuration that is the default, none does.
-/
namespace Interleave

/-! ## Sweeps -/

/-- How many steps of a size take a ratio across a distance. -/
def stepsAcross (size distance : Nat) : Nat := (distance + size - 1) / size

theorem stepsAcross_mono {size a b : Nat} (h : a ≤ b) : stepsAcross size a ≤ stepsAcross size b :=
  Nat.div_le_div_right (by omega)

/-- A step of that size at least leaves less to cross. -/
theorem stepsAcross_sub_lt {size distance step : Nat} (hsize : 0 < size) (hstep : size ≤ step)
    (h : 0 < distance) : stepsAcross size (distance - step) < stepsAcross size distance := by
  have hone : stepsAcross size distance = (distance - 1) / size + 1 := by
    rw [stepsAcross, ← Nat.add_div_right _ hsize]
    congr 1
    omega
  rw [hone, Nat.lt_succ_iff]
  rcases Nat.lt_or_ge distance size with hlt | hge
  · have hnone : distance - step = 0 := by omega
    rw [stepsAcross, hnone, Nat.div_eq_of_lt (by omega)]
    exact Nat.zero_le _
  · exact Nat.div_le_div_right (by omega)

/-! ## Halvings -/

theorem log2_mono {a b : Nat} (h : a ≤ b) : a.log2 ≤ b.log2 := by
  rw [Nat.log2_eq_log_two, Nat.log2_eq_log_two]
  exact Nat.log_mono_right h

theorem log2_half_lt {n : Nat} (h : 2 ≤ n) : (n / 2).log2 < n.log2 := by
  rw [Nat.log2_def n, if_pos h]
  exact Nat.lt_succ_self _

namespace ControllerConfig

/-- A half of a step is smaller, or falls into the dead zone. -/
def Halves (c : ControllerConfig) : Prop := c.rounding = .towardZero ∨ 2 ≤ c.minStep

instance (c : ControllerConfig) : Decidable c.Halves := inferInstanceAs (Decidable (_ ∨ _))

/-- The size of the smallest step that moves the ratio. -/
def leastStep (c : ControllerConfig) : Nat := max c.minStep.toNat 1

/-- The most steps that a sweep of the whole range takes. -/
def sweep (c : ControllerConfig) : Nat := stepsAcross c.leastStep maxRatio

/-- The most points of a climb that starts from rest. -/
def climbBound (c : ControllerConfig) : Nat :=
  ((c.maxStep + 1).toNat.log2 + 1) * (2 * c.sweep) + 1

/-- How often a step can still be reversed. -/
def halvings (c : ControllerConfig) (step : Int) : Nat :=
  match c.rounding with
  | .nearest => (step.natAbs - 1).log2
  | .towardZero => step.natAbs.log2

/-- What is left of the sweeps in the direction of a step: down and up again, or up. -/
def sweepLeft (c : ControllerConfig) (ratio : Nat) (step : Int) : Nat :=
  if step < 0 then stepsAcross c.leastStep ratio + c.sweep
  else stepsAcross c.leastStep (maxRatio - ratio)

/-- What every move lowers. -/
def potential (c : ControllerConfig) (state : ControlState) : Nat :=
  c.halvings state.step * (2 * c.sweep) + c.sweepLeft state.ratio state.step

variable {c : ControllerConfig} {prev next : ControlState} {observed : Float} {d : Decision}
  {ratio : Nat} {step last : Int}

theorem leastStep_pos : 0 < c.leastStep := by
  unfold leastStep; omega

theorem halvings_mono (h : step.natAbs ≤ last.natAbs) : c.halvings step ≤ c.halvings last := by
  unfold halvings
  split
  · exact log2_mono (by omega)
  · exact log2_mono h

theorem halvings_le (h : (step.natAbs : Int) ≤ c.maxStep + 1) :
    c.halvings step ≤ (c.maxStep + 1).toNat.log2 := by
  unfold halvings
  split <;> exact log2_mono (by omega)

/-- What is kept of a reversed step can be reversed less often. -/
theorem halvings_lt (hhalves : c.Halves) (hword : Step.InWord last)
    (h : c.Kept (c.reversedStep last) step) : c.halvings step < c.halvings last := by
  have hout := h.outside
  have hle : step.natAbs ≤ c.rounding.quotient last.natAbs 2 := by
    have hsign : last.sign.natAbs ≤ 1 := by
      rw [Int.natAbs_sign]
      split <;> omega
    refine h.le.trans ?_
    rw [reversedStep_eq c hword, Int.natAbs_neg, Int.natAbs_mul, Int.natAbs_natCast]
    exact (Nat.mul_le_mul_right _ hsign).trans_eq (Nat.one_mul _)
  unfold halvings
  rcases hhalves with hmode | hdead
  · rw [hmode] at hle ⊢
    dsimp only [Rounding.quotient] at hle
    exact (log2_mono hle).trans_lt (log2_half_lt (by omega))
  · cases hmode : c.rounding with
    | towardZero =>
      rw [hmode] at hle
      dsimp only [Rounding.quotient] at hle
      exact (log2_mono hle).trans_lt (log2_half_lt (by omega))
    | nearest =>
      rw [hmode] at hle
      dsimp only [Rounding.quotient] at hle
      have hhalf : step.natAbs - 1 ≤ (last.natAbs - 1) / 2 := by omega
      exact (log2_mono hhalf).trans_lt (log2_half_lt (by omega))

/-- A step that moves the ratio leaves less of its sweep. -/
theorem sweepLeft_lt (hratio : ratio ≤ maxRatio) (hstep : max c.minStep 1 ≤ step.natAbs)
    (hmoved : (moveRatio ratio step).1 ≠ ratio) :
    c.sweepLeft (moveRatio ratio step).1 step < c.sweepLeft ratio step := by
  unfold sweepLeft
  have hsize : c.leastStep ≤ step.natAbs := by
    unfold leastStep; omega
  split
  · rename_i hneg
    rw [moveRatio_down hratio (by omega)] at hmoved ⊢
    exact Nat.add_lt_add_right (stepsAcross_sub_lt leastStep_pos hsize (by omega)) _
  · rename_i hneg
    rw [moveRatio_up (by omega)] at hmoved ⊢
    have hleft : maxRatio - min (ratio + step.natAbs) maxRatio = maxRatio - ratio - step.natAbs := by
      omega
    rw [hleft]
    exact stepsAcross_sub_lt leastStep_pos hsize (by omega)

/-- A sweep is at most one way down and one way up. -/
theorem sweepLeft_le (hratio : ratio ≤ maxRatio) : c.sweepLeft ratio step ≤ 2 * c.sweep := by
  have hdown : stepsAcross c.leastStep ratio ≤ c.sweep := stepsAcross_mono hratio
  have hup : stepsAcross c.leastStep (maxRatio - ratio) ≤ c.sweep := stepsAcross_mono (by omega)
  unfold sweepLeft
  split <;> omega

/-- A sweep that goes on, or turns upwards, leaves no more than before. -/
theorem sweepLeft_le_of_turn (h : step < 0 → last < 0) :
    c.sweepLeft ratio step ≤ c.sweepLeft ratio last := by
  have hup : stepsAcross c.leastStep (maxRatio - ratio) ≤ c.sweep := stepsAcross_mono (by omega)
  unfold sweepLeft
  split <;> split <;> omega

/-! ## One move -/

/-- A rule other than the reversal neither enlarges a step nor turns it downwards. -/
theorem Proposes.turn {rule : Rule} {proposed : Int} (h : c.Proposes prev observed rule proposed)
    (hword : Step.InWord prev.step) (hmoving : prev.step ≠ 0) (hkept : c.Kept proposed step) :
    step.natAbs ≤ prev.step.natAbs ∧ (step < 0 → prev.step < 0) ∨
      proposed = c.reversedStep prev.step := by
  have hle := hkept.le
  have hneg := hkept.neg_iff
  cases h with
  | escape =>
    unfold Step.magnitude at *
    unfold Step.maxValue at *
    exact .inl ⟨by omega, by omega⟩
  | coldStart loss _ hrest => exact absurd hrest hmoving
  | improving loss =>
    have hbetween := c.dampedStep_between hword loss
    exact .inl ⟨by omega, by omega⟩
  | regressing => exact .inr rfl

/-- An iteration that moves the ratio does so by a step that the limits kept. -/
theorem kept_of_moved (hc : c.Valid) (hword : Step.InWord prev.step) (hratio : prev.ratio ≤ maxRatio)
    (h : c.advance prev observed = .ok (next, d)) (hmoved : next.ratio ≠ prev.ratio) :
    c.Kept d.proposed next.step ∧ next.ratio = (moveRatio prev.ratio next.step).1 := by
  obtain ⟨hproposes, rfl⟩ := advance_cases h
  refine ⟨?_, rfl⟩
  rcases c.limit_cases hc (hproposes.inWord hword) with h0 | hkept
  · refine absurd ?_ hmoved
    rw [h0, moveRatio_up le_rfl]
    exact min_eq_left hratio
  · exact hkept

section
variable (hc : c.Valid) (hhalves : c.Halves) (hword : Step.InWord prev.step)
  (hratio : prev.ratio ≤ maxRatio) (h : c.advance prev observed = .ok (next, d))
  (hmoved : next.ratio ≠ prev.ratio)
include hc hword hratio h hmoved

theorem inWord_of_moved : Step.InWord next.step ∧ next.step ≠ 0 := by
  obtain ⟨hkept, -⟩ := kept_of_moved hc hword hratio h hmoved
  have hout := hkept.outside
  exact ⟨hkept.inWord ((advance_cases h).1.inWord hword), by omega⟩

/-- The first move leaves a potential, whatever it is. -/
theorem potential_lt_bound : c.potential next < ((c.maxStep + 1).toNat.log2 + 1) * (2 * c.sweep) := by
  obtain ⟨hkept, hnext⟩ := kept_of_moved hc hword hratio h hmoved
  have hleft := (sweepLeft_lt hratio hkept.outside (hnext ▸ hmoved)).trans_le (sweepLeft_le hratio)
  rw [← hnext] at hleft
  calc c.halvings next.step * (2 * c.sweep) + c.sweepLeft next.ratio next.step
      < c.halvings next.step * (2 * c.sweep) + 2 * c.sweep := Nat.add_lt_add_left hleft _
    _ = (c.halvings next.step + 1) * (2 * c.sweep) := (Nat.succ_mul _ _).symm
    _ ≤ _ := Nat.mul_le_mul_right _ (Nat.succ_le_succ (halvings_le hkept.le_max))

include hhalves in
/-- Every other move lowers it. -/
theorem potential_lt (hmoving : prev.step ≠ 0) : c.potential next < c.potential prev := by
  obtain ⟨hkept, hnext⟩ := kept_of_moved hc hword hratio h hmoved
  have hlt := sweepLeft_lt hratio hkept.outside (hnext ▸ hmoved)
  rw [← hnext] at hlt
  unfold potential
  rcases (advance_cases h).1.turn hword hmoving hkept with ⟨hsize, hturn⟩ | hreversed
  · calc c.halvings next.step * (2 * c.sweep) + c.sweepLeft next.ratio next.step
        < c.halvings next.step * (2 * c.sweep) + c.sweepLeft prev.ratio next.step :=
          Nat.add_lt_add_left hlt _
      _ ≤ _ := Nat.add_le_add (Nat.mul_le_mul_right _ (halvings_mono hsize))
          (sweepLeft_le_of_turn hturn)
  · have hfewer := halvings_lt hhalves hword (hreversed ▸ hkept)
    calc c.halvings next.step * (2 * c.sweep) + c.sweepLeft next.ratio next.step
        < c.halvings next.step * (2 * c.sweep) + 2 * c.sweep :=
          Nat.add_lt_add_left (hlt.trans_le (sweepLeft_le hratio)) _
      _ = (c.halvings next.step + 1) * (2 * c.sweep) := (Nat.succ_mul _ _).symm
      _ ≤ c.halvings prev.step * (2 * c.sweep) := Nat.mul_le_mul_right _ hfewer
      _ ≤ _ := Nat.le_add_right _ _

end

end ControllerConfig

/-! ## Climbs -/

section
variable {controller : Controller} (curve : Curve) (phase : Phase)

/-- One iteration, and what follows if it moves the ratio. -/
theorem exists_climbs_succ {i bound : Nat} {state : ControlState}
    (h : ∀ next decision, controller.iterate curve state = .ok (next, decision) →
      next.ratio ≠ state.ratio → ∃ observed outcome,
        Climbs controller curve phase (i + 1) next observed outcome ∧ room observed outcome ≤ bound) :
    ∃ observed outcome, Climbs controller curve phase i state observed outcome ∧
      room observed outcome ≤ bound + 1 := by
  cases hstep : controller.iterate curve state with
  | error fault => exact ⟨[], .error fault, .failed hstep, by simp [room]⟩
  | ok step =>
    obtain ⟨next, decision⟩ := step
    by_cases hmoved : next.ratio = state.ratio
    · exact ⟨_, _, .converged hstep hmoved, by simp [room]⟩
    · obtain ⟨observed, outcome, hclimb, hroom⟩ := h next decision hstep hmoved
      exact ⟨_, outcome, .moved hstep hmoved hclimb, by rw [room_cons]; omega⟩

variable (hhalves : controller.config.Halves)
include hhalves

/-- A climb that is under way ends before its potential is used up. -/
theorem exists_climbs_of_moving (i : Nat) (state : ControlState) (hword : Step.InWord state.step)
    (hratio : state.ratio ≤ maxRatio) (hmoving : state.step ≠ 0) :
    ∃ observed outcome, Climbs controller curve phase i state observed outcome ∧
      room observed outcome ≤ controller.config.potential state + 1 := by
  induction hn : controller.config.potential state using Nat.strong_induction_on
    generalizing i state with
  | _ n ih =>
    apply exists_climbs_succ curve phase
    intro next decision hstep hmoved
    obtain ⟨-, hadvance⟩ := Controller.iterate_ok hstep
    have hlt := ControllerConfig.potential_lt controller.valid hhalves hword hratio hadvance hmoved
      hmoving
    obtain ⟨hword', hmoving'⟩ := ControllerConfig.inWord_of_moved controller.valid hword hratio
      hadvance hmoved
    obtain ⟨observed, outcome, hclimb, hroom⟩ := ih _ (hn ▸ hlt) (i + 1) next hword'
      (ControllerConfig.advance_ratio_le hadvance) hmoving' rfl
    exact ⟨observed, outcome, hclimb, by omega⟩

/-- Every climb from rest ends within the bound: its first move sets up a potential, and the moves
that follow lower it. -/
theorem exists_climbs (i : Nat) (state : ControlState) (hratio : state.ratio ≤ maxRatio)
    (hrest : state.step = 0) :
    ∃ observed outcome, Climbs controller curve phase i state observed outcome ∧
      room observed outcome ≤ controller.config.climbBound := by
  have hword : Step.InWord state.step := by
    rw [hrest]
    decide
  apply exists_climbs_succ curve phase
  intro next decision hstep hmoved
  obtain ⟨-, hadvance⟩ := Controller.iterate_ok hstep
  have hlt := ControllerConfig.potential_lt_bound controller.valid hword hratio hadvance hmoved
  obtain ⟨hword', hmoving'⟩ := ControllerConfig.inWord_of_moved controller.valid hword hratio
    hadvance hmoved
  obtain ⟨observed, outcome, hclimb, hroom⟩ := exists_climbs_of_moving curve phase hhalves (i + 1)
    next hword' (ControllerConfig.advance_ratio_le hadvance) hmoving'
  exact ⟨observed, outcome, hclimb, by omega⟩

end

/-! ## Runs -/

theorem Climbs.ratio_le {controller : Controller} {curve : Curve} {phase : Phase} {i : Nat}
    {state final : ControlState} {observed : List Observation}
    (h : Climbs controller curve phase i state observed (.ok final)) : final.ratio ≤ maxRatio := by
  generalize hout : Except.ok final = outcome at h
  induction h with
  | failed => cases hout
  | converged hstep =>
    cases hout
    exact ControllerConfig.advance_ratio_le (Controller.iterate_ok hstep).2
  | moved _ _ _ ih => exact ih hout

namespace Simulator

variable {s : Simulator}

theorem countP_first (climbed : List Observation) (phase : Phase) :
    (s.first :: climbed).countP (·.controlledIn phase) = climbed.countP (·.controlledIn phase) :=
  List.countP_cons_of_neg (by simp [Observation.controlledIn, first, Observation.record])

/-- The points up to the second phase that follow from a decision are those of the first climb. -/
theorem countP_beforeSwitch (climbed : List Observation) (state : ControlState) (phase : Phase) :
    (s.beforeSwitch climbed state).countP (·.controlledIn phase) =
      climbed.countP (·.controlledIn phase) := by
  have hheld : (holdPoints .primary state.atRest (climbed.length + 1)
      s.config.holdIterations).countP (·.controlledIn phase) = 0 := by
    apply List.countP_eq_zero.2
    intro o ho
    obtain ⟨i, -, rfl⟩ := List.mem_map.1 ho
    simp [Observation.controlledIn, Observation.record]
  rw [beforeSwitch, List.countP_append, countP_first, hheld, Nat.add_zero]

theorem countP_both_le {curve : Curve} {climbed observed : List Observation} {state : ControlState}
    {outcome outcome' : Except ControlFault ControlState} {bound : Nat}
    (hclimb : Climbs s.controller s.primary .primary 1 s.initial climbed outcome)
    (hsecond : Climbs s.controller curve .secondary (s.beforeSwitch climbed state).length
      state.atRest observed outcome')
    (hroom : room climbed outcome ≤ bound) (hroom' : room observed outcome' ≤ bound) (phase : Phase) :
    (s.beforeSwitch climbed state ++ observed).countP (·.controlledIn phase) ≤ bound := by
  have hle := (length_le_room climbed outcome).trans hroom
  have hle' := (length_le_room observed outcome').trans hroom'
  have hcount := hclimb.countP_le phase
  have hcount' := hsecond.countP_le phase
  rw [List.countP_append, countP_beforeSwitch]
  cases phase <;> simp only [reduceCtorEq, if_true, if_false] at hcount hcount' <;> omega

/-- Every run has a course, and both its phases end within the bound. -/
theorem exists_course (hhalves : s.controller.config.Halves) :
    ∃ observed outcome, s.Course observed outcome ∧
      room observed outcome ≤ 1 + s.config.holdIterations + 2 * s.controller.config.climbBound ∧
      ∀ phase, observed.countP (·.controlledIn phase) ≤ s.controller.config.climbBound := by
  obtain ⟨climbed, outcome, hclimb, hroom⟩ := exists_climbs s.primary .primary hhalves 1 s.initial
    s.valid.bounds.1 rfl
  have hle := (length_le_room climbed outcome).trans hroom
  have hcount (phase : Phase) : (s.first :: climbed).countP (·.controlledIn phase) ≤
      s.controller.config.climbBound := by
    rw [countP_first]
    exact List.countP_le_length.trans hle
  cases outcome with
  | error fault =>
    refine ⟨_, _, .primaryFails hclimb, ?_, hcount⟩
    rw [room_cons, room]
    rw [room] at hroom
    omega
  | ok state =>
    cases hsecondary : s.secondary with
    | none =>
      refine ⟨_, _, .single hsecondary hclimb, ?_, hcount⟩
      rw [room_cons, room]
      omega
    | some curve =>
      obtain ⟨observed, outcome, hsecond, hroom'⟩ := exists_climbs curve .secondary hhalves
        (s.beforeSwitch climbed state).length state.atRest hclimb.ratio_le rfl
      refine ⟨_, _, .of_second hsecondary hclimb hsecond, ?_,
        countP_both_le hclimb hsecond hroom hroom'⟩
      rw [room_append, room_map, length_beforeSwitch]
      omega

/-- No phase takes more points than the bound, whatever the cap. -/
theorem countP_run_le (hhalves : s.controller.config.Halves) (phase : Phase) :
    s.run.observed.countP (·.controlledIn phase) ≤ s.controller.config.climbBound := by
  obtain ⟨observed, outcome, hcourse, -, hcount⟩ := exists_course hhalves
  rw [hcourse.run_eq, Run.within]
  split
  · exact hcount phase
  · exact ((List.take_sublist _ _).countP_le).trans (hcount phase)

section
variable (hhalves : s.controller.config.Halves)
  (hcap : 1 + s.config.holdIterations + 2 * s.controller.config.climbBound ≤ s.config.maxIterations)
include hhalves hcap

/-- With room for two climbs and the hold, every run is its course. -/
theorem run_of_room :
    (∃ t, s.run.result = .ok t) ∨ ∃ fault, s.run.result = .error fault ∧ s.IterationFault fault := by
  obtain ⟨observed, outcome, hcourse, hroom, -⟩ := exists_course hhalves
  rw [hcourse.run_eq, Run.within_of_le (hroom.trans hcap)]
  cases outcome with
  | ok t => exact .inl ⟨t, rfl⟩
  | error fault => exact .inr ⟨fault, rfl, hcourse.iterationFault⟩

theorem ne_noConvergence_of_room (n : Nat) : s.run.result ≠ .error (.noConvergence n) := by
  intro h
  rcases run_of_room hhalves hcap with ⟨t, ht⟩ | ⟨fault, hf, hfault⟩
  · rw [h] at ht
    cases ht
  · rw [h] at hf
    cases hf
    exact hfault.ne_noConvergence n rfl

end

end Simulator

/-- Every run converges, or fails for a reason of its own, if the rounding makes a half smaller or
the dead zone stops it: each phase records no more points of the control law than the bound, so a cap
of two such climbs, the hold and the first point is never met. The configuration that is the default
never meets its cap on any curves. -/
theorem run_converges :
    (∀ s : Simulator, s.controller.config.Halves →
      (∀ phase, s.run.observed.countP (·.controlledIn phase) ≤ s.controller.config.climbBound) ∧
      (1 + s.config.holdIterations + 2 * s.controller.config.climbBound ≤ s.config.maxIterations →
        (∀ n, s.run.result ≠ .error (.noConvergence n)) ∧
        ((∃ t, s.run.result = .ok t) ∨
          ∃ fault, s.run.result = .error fault ∧ s.IterationFault fault))) ∧
    ControllerConfig.climbBound {} = 401 ∧
    ∀ s : Simulator, s.controller.config = {} → s.config = {} →
      ∀ n, s.run.result ≠ .error (.noConvergence n) := by
  refine ⟨?_, by decide, ?_⟩
  · intro s hhalves
    refine ⟨Simulator.countP_run_le hhalves, fun hcap => ?_⟩
    exact ⟨Simulator.ne_noConvergence_of_room hhalves hcap, Simulator.run_of_room hhalves hcap⟩
  · intro s hcontroller hconfig
    apply Simulator.ne_noConvergence_of_room
    · rw [hcontroller]
      decide
    · rw [hcontroller, hconfig]
      decide

/-- Two climbs of at most 401 points within the cap of 1000, and the same where the default starts. -/
theorem run_converges_rising :
    (∀ phase, Simulator.rising.run.observed.countP (·.controlledIn phase) ≤ 401) ∧
      (∀ n, Simulator.rising.run.result ≠ .error (.noConvergence n)) ∧
      ∀ n, ({ Simulator.rising with config := {}, valid := by decide } : Simulator).run.result ≠
        .error (.noConvergence n) := by
  obtain ⟨hbounded, hdefault, hnever⟩ := run_converges
  obtain ⟨hcount, hfits⟩ := hbounded Simulator.rising (by decide)
  have hbound : Simulator.rising.controller.config.climbBound = 401 := hdefault
  rw [hbound] at hcount hfits
  exact ⟨hcount, (hfits (by decide)).1, hnever _ rfl rfl⟩

end Interleave
