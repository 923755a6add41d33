import Interleave.Proofs.Simulation.Climb
import Mathlib.Control.Monad.Basic

/-!
# Runs without a cap

`Course` is a run as the curves and the control law have it: a climb of the first curve and, if there
is a second one and the first climb converges, the points that hold the converged ratio and a climb of
the second curve. The cap on the points comes after it: a run is its course where the course fits
within the cap and the first points of the course otherwise, with a fault that says so (`Run.within`).

Results:
* `run_eq`, `run_cases`: every run is a course within the cap, or as many points as the cap allows.
* `cap_only_truncates`: what another cap makes of a run.
-/
namespace Interleave

/-- What a cap leaves of a run. -/
def Run.within (cap : Nat) (observed : List Observation) (outcome : Except ControlFault Trace) : Run :=
  if room observed outcome ≤ cap then ⟨observed, outcome⟩
  else ⟨observed.take cap, .error (.noConvergence cap)⟩

theorem Run.within_of_le {cap : Nat} {observed : List Observation}
    {outcome : Except ControlFault Trace} (h : room observed outcome ≤ cap) :
    Run.within cap observed outcome = ⟨observed, outcome⟩ :=
  if_pos h

theorem Run.within_of_lt {cap : Nat} {observed : List Observation}
    {outcome : Except ControlFault Trace} (h : cap < room observed outcome) :
    Run.within cap observed outcome = ⟨observed.take cap, .error (.noConvergence cap)⟩ :=
  if_neg (Nat.not_le.2 h)

/-- A run that the cap has stopped. -/
def Run.TimesOut (run : Run) (cap : Nat) : Prop :=
  run.result = .error (.noConvergence cap) ∧ run.observed.length = cap

theorem Run.within_cases (cap : Nat) (observed : List Observation)
    (outcome : Except ControlFault Trace) :
    room observed outcome ≤ cap ∨ (Run.within cap observed outcome).TimesOut cap := by
  by_cases h : room observed outcome ≤ cap
  · exact .inl h
  · have hroom := room_le_succ observed outcome
    rw [Run.within_of_lt (Nat.lt_of_not_le h)]
    exact .inr ⟨rfl, List.length_take_of_le (by omega)⟩

namespace Simulator

variable (s : Simulator)

/-- The point that every run starts with. -/
def first : Observation := .record 0 .primary s.initial none

theorem state_first : s.first.point.state = s.initial := rfl

/-- What is observed up to the second phase, if the first one records `climbed` and converges in
`state`. -/
def beforeSwitch (climbed : List Observation) (state : ControlState) : List Observation :=
  s.first :: climbed ++
    holdPoints .primary state.atRest (climbed.length + 1) s.config.holdIterations

/-- The trace of a run that climbs both curves. -/
def bothPhases (climbed : List Observation) (state : ControlState) (observed : List Observation) :
    Trace :=
  .ofObserved (s.beforeSwitch climbed state ++ observed) (some climbed.length)
    (some (s.beforeSwitch climbed state).length)
    (some ((s.beforeSwitch climbed state).length + observed.length - 1))

/-- `s.Course observed outcome`: with room for all points, the run observes `observed` and ends in
`outcome`. -/
inductive Course : List Observation → Except ControlFault Trace → Prop
  | primaryFails {climbed fault} :
      Climbs s.controller s.primary .primary 1 s.initial climbed (.error fault) →
      Course (s.first :: climbed) (.error fault)
  | single {climbed state} : s.secondary = none →
      Climbs s.controller s.primary .primary 1 s.initial climbed (.ok state) →
      Course (s.first :: climbed)
        (.ok (.ofObserved (s.first :: climbed) (some climbed.length) none none))
  | secondaryFails {curve climbed state observed fault} : s.secondary = some curve →
      Climbs s.controller s.primary .primary 1 s.initial climbed (.ok state) →
      Climbs s.controller curve .secondary (s.beforeSwitch climbed state).length state.atRest
        observed (.error fault) →
      Course (s.beforeSwitch climbed state ++ observed) (.error fault)
  | double {curve climbed state observed final} : s.secondary = some curve →
      Climbs s.controller s.primary .primary 1 s.initial climbed (.ok state) →
      Climbs s.controller curve .secondary (s.beforeSwitch climbed state).length state.atRest
        observed (.ok final) →
      Course (s.beforeSwitch climbed state ++ observed) (.ok (s.bothPhases climbed state observed))

variable {s}

/-- A run that reaches the second climb, however that ends. -/
theorem Course.of_second {curve : Curve} {climbed : List Observation} {state : ControlState}
    {observed : List Observation} {outcome : Except ControlFault ControlState}
    (hsome : s.secondary = some curve)
    (hclimb : Climbs s.controller s.primary .primary 1 s.initial climbed (.ok state))
    (hsecond : Climbs s.controller curve .secondary (s.beforeSwitch climbed state).length
      state.atRest observed outcome) :
    s.Course (s.beforeSwitch climbed state ++ observed)
      (outcome.map fun _ => s.bothPhases climbed state observed) := by
  cases outcome with
  | error fault => exact .secondaryFails hsome hclimb hsecond
  | ok final => exact .double hsome hclimb hsecond

/-! ## Runs of a course -/

theorem length_holdPoints (phase : Phase) (state : ControlState) (iteration count : Nat) :
    (holdPoints phase state iteration count).length = count := by
  rw [holdPoints, List.length_map, List.length_range']

theorem holdPoints_take (phase : Phase) (state : ControlState) (iteration : Nat) {k count : Nat}
    (h : k ≤ count) :
    (holdPoints phase state iteration count).take k = holdPoints phase state iteration k := by
  rw [holdPoints, ← List.map_take, List.take_range'_of_length_ge h]
  rfl

theorem length_beforeSwitch (climbed : List Observation) (state : ControlState) :
    (s.beforeSwitch climbed state).length = climbed.length + 1 + s.config.holdIterations := by
  simp [beforeSwitch, length_holdPoints, Nat.add_right_comm]

/-- How a run ends with the climb of its second curve. -/
def conclude (held : List Observation) (primaryAt : Nat) : List Observation × Ending → Run
  | (climbed, .converged secondaryAt _ _) =>
    ⟨held ++ climbed, .ok (.ofObserved (held ++ climbed) (some primaryAt) (some held.length)
      (some secondaryAt))⟩
  | (climbed, .outOfPoints) =>
    ⟨held ++ climbed, .error (.noConvergence (held ++ climbed).length)⟩
  | (climbed, .failed fault) => ⟨held ++ climbed, .error fault⟩

section
variable (curve : Curve) (climbed : List Observation) (state : ControlState) (primaryAt : Nat)
  {budget : Nat}

theorem runSecond_of_lt (h : budget < s.config.holdIterations) :
    s.runSecond curve (s.first :: climbed) primaryAt state budget =
      ⟨(s.beforeSwitch climbed state).take (climbed.length + 1 + budget),
        .error (.noConvergence (climbed.length + 1 + budget))⟩ := by
  have hheld : (s.beforeSwitch climbed state).take (climbed.length + 1 + budget) = s.first :: climbed ++
      holdPoints .primary state.atRest (s.first :: climbed).length
        (min s.config.holdIterations budget) := by
    rw [beforeSwitch, List.take_append, List.take_of_length_le (by simp),
      holdPoints_take _ _ _ (by simp; omega), Nat.min_eq_right (Nat.le_of_lt h)]
    simp
  unfold runSecond
  dsimp only
  rw [if_pos h, ← hheld, List.length_take_of_le]
  rw [length_beforeSwitch]
  omega

theorem runSecond_of_le (h : s.config.holdIterations ≤ budget) :
    s.runSecond curve (s.first :: climbed) primaryAt state budget =
      conclude (s.beforeSwitch climbed state) primaryAt (climb s.controller curve .secondary
        (budget - s.config.holdIterations) (s.beforeSwitch climbed state).length state.atRest) := by
  have hheld : s.first :: climbed ++ holdPoints .primary state.atRest (s.first :: climbed).length
      (min s.config.holdIterations budget) = s.beforeSwitch climbed state := by
    rw [Nat.min_eq_left h]
    rfl
  unfold runSecond
  dsimp only
  rw [if_neg (Nat.not_lt.2 h), hheld]
  obtain ⟨observed, ending⟩ := climb s.controller curve .secondary _ _ _
  cases ending <;> rfl

end

/-- The second part of a run that has got past the first climb. -/
theorem runSecond_eq {curve : Curve} {climbed : List Observation} {state : ControlState}
    {observed : List Observation} {outcome : Except ControlFault ControlState} {budget : Nat}
    (h : Climbs s.controller curve .secondary (s.beforeSwitch climbed state).length state.atRest
      observed outcome) :
    s.runSecond curve (s.first :: climbed) climbed.length state budget =
      .within (climbed.length + 1 + budget) (s.beforeSwitch climbed state ++ observed)
        (outcome.map fun _ => s.bothPhases climbed state observed) := by
  have hlen := s.length_beforeSwitch climbed state
  have hshow := length_le_room observed outcome
  have hroom := room_le_succ observed outcome
  rcases Nat.lt_or_ge budget s.config.holdIterations with hhold | hhold
  · rw [runSecond_of_lt _ _ _ _ hhold, Run.within_of_lt (by simp; omega),
      List.take_append_of_le_length (by omega)]
  · rw [runSecond_of_le _ _ _ _ hhold, h.climb_eq]
    by_cases hfits : room observed outcome ≤ budget - s.config.holdIterations
    · rw [if_pos hfits, Run.within_of_le (by simp; omega)]
      cases outcome <;> rfl
    · have htake : (s.beforeSwitch climbed state ++ observed).take (climbed.length + 1 + budget) =
          s.beforeSwitch climbed state ++ observed.take (budget - s.config.holdIterations) := by
        rw [List.take_append, List.take_of_length_le (by omega)]
        congr 2
        omega
      rw [if_neg hfits, Run.within_of_lt (by simp; omega), conclude, htake, List.length_append,
        List.length_take_of_le (by omega)]
      congr 3
      omega

/-- How a run goes on after its first climb. -/
def proceed (s : Simulator) (climbed : List Observation) : Except ControlFault ControlState → Run
  | .error fault => ⟨s.first :: climbed, .error fault⟩
  | .ok state =>
    match s.secondary with
    | none =>
      ⟨s.first :: climbed, .ok (.ofObserved (s.first :: climbed) (some climbed.length) none none)⟩
    | some curve => s.runSecond curve (s.first :: climbed) climbed.length state
        (s.config.maxIterations - 1 - climbed.length)

theorem run_of_climbs {climbed : List Observation} {outcome : Except ControlFault ControlState}
    (h : Climbs s.controller s.primary .primary 1 s.initial climbed outcome) :
    s.run = if room (s.first :: climbed) outcome ≤ s.config.maxIterations then
      s.proceed climbed outcome else ⟨(s.first :: climbed).take s.config.maxIterations,
        .error (.noConvergence s.config.maxIterations)⟩ := by
  obtain ⟨budget, hbudget⟩ : ∃ budget, s.config.maxIterations = budget + 1 :=
    ⟨_, (Nat.sub_one_add_one_eq_of_pos s.valid.bounds.2).symm⟩
  rw [run_eq_told, hbudget, Nat.add_sub_cancel, h.climb_eq]
  by_cases hfits : room climbed outcome ≤ budget
  · rw [if_pos hfits, if_pos (by simpa using hfits)]
    cases outcome with
    | error fault => rfl
    | ok state =>
      simp only [Ending.of, Nat.add_sub_cancel_left, proceed, hbudget, Nat.add_sub_cancel]
      cases s.secondary <;> rfl
  · have hroom := room_le_succ climbed outcome
    rw [if_neg hfits, if_neg (by simpa using hfits)]
    simp only [List.length_cons, List.length_take_of_le (by omega : budget ≤ climbed.length)]
    rfl

/-- The run where the second phase is reached, if there is room for it. -/
theorem run_eq_of_second {curve : Curve} {climbed : List Observation} {state : ControlState}
    {observed : List Observation} {outcome : Except ControlFault ControlState}
    (hsome : s.secondary = some curve)
    (hclimb : Climbs s.controller s.primary .primary 1 s.initial climbed (.ok state))
    (hsecond : Climbs s.controller curve .secondary (s.beforeSwitch climbed state).length
      state.atRest observed outcome) :
    s.run = .within s.config.maxIterations (s.beforeSwitch climbed state ++ observed)
      (outcome.map fun _ => s.bothPhases climbed state observed) := by
  rw [run_of_climbs hclimb, proceed, hsome]
  have hlen := s.length_beforeSwitch climbed state
  split
  · rename_i hfits
    rw [room_cons, room] at hfits
    have hcap : climbed.length + 1 + (s.config.maxIterations - 1 - climbed.length) =
        s.config.maxIterations := by omega
    dsimp only
    rw [runSecond_eq hsecond, hcap]
  · rename_i hfits
    rw [room_cons, room] at hfits
    rw [Run.within_of_lt (by simp; omega), List.take_append_of_le_length (by omega), beforeSwitch,
      List.take_append_of_le_length]
    rw [List.length_cons]
    omega

theorem Course.run_eq {observed : List Observation} {outcome : Except ControlFault Trace}
    (h : s.Course observed outcome) :
    s.run = .within s.config.maxIterations observed outcome := by
  cases h with
  | primaryFails hclimb =>
    rw [run_of_climbs hclimb]
    rfl
  | single hnone hclimb =>
    rw [run_of_climbs hclimb, proceed, hnone]
    rfl
  | secondaryFails hsome hclimb hsecond => exact run_eq_of_second hsome hclimb hsecond
  | double hsome hclimb hsecond => exact run_eq_of_second hsome hclimb hsecond

/-- The second part of a run has a course, or the cap stops it. -/
theorem runSecond_cases (s : Simulator) (curve : Curve) (climbed : List Observation)
    (state : ControlState) (budget : Nat) :
    (∃ observed outcome, Climbs s.controller curve .secondary (s.beforeSwitch climbed state).length
        state.atRest observed outcome) ∨
      (s.runSecond curve (s.first :: climbed) climbed.length state budget).TimesOut
        (climbed.length + 1 + budget) := by
  have hlen := s.length_beforeSwitch climbed state
  rcases Nat.lt_or_ge budget s.config.holdIterations with hhold | hhold
  · rw [runSecond_of_lt _ _ _ _ hhold]
    exact .inr ⟨rfl, List.length_take_of_le (by omega)⟩
  · rw [runSecond_of_le _ _ _ _ hhold]
    rcases climb_cases s.controller curve .secondary (budget - s.config.holdIterations)
      (s.beforeSwitch climbed state).length state.atRest with ⟨observed, outcome, h, -⟩ | ⟨hend, hout⟩
    · exact .inl ⟨observed, outcome, h⟩
    · generalize climb s.controller curve .secondary _ _ _ = climbed' at hend hout
      obtain ⟨observed, ending⟩ := climbed'
      dsimp only at hend hout
      subst hend
      have hall : (s.beforeSwitch climbed state ++ observed).length = climbed.length + 1 + budget := by
        rw [List.length_append, hout]
        omega
      exact .inr ⟨by rw [conclude, hall], hall⟩

theorem timesOut_of_first (hend : (climb s.controller s.primary .primary
      (s.config.maxIterations - 1) 1 s.initial).2 = .outOfPoints)
    (hlen : (climb s.controller s.primary .primary (s.config.maxIterations - 1) 1 s.initial).1.length =
      s.config.maxIterations - 1) : s.run.TimesOut s.config.maxIterations := by
  have hcap := s.valid.bounds.2
  have hall : (s.first :: (climb s.controller s.primary .primary (s.config.maxIterations - 1) 1
      s.initial).1).length = s.config.maxIterations := by
    rw [List.length_cons, hlen]
    omega
  rw [run_eq_told]
  dsimp only
  rw [hend]
  exact ⟨congrArg (fun n => (.error (.noConvergence n) : Except ControlFault Trace)) hall, hall⟩

theorem timesOut_of_second {curve : Curve} {climbed : List Observation} {state : ControlState}
    (hsome : s.secondary = some curve)
    (hclimb : Climbs s.controller s.primary .primary 1 s.initial climbed (.ok state))
    (hfits : climbed.length < s.config.maxIterations)
    (hout : (s.runSecond curve (s.first :: climbed) climbed.length state
      (s.config.maxIterations - 1 - climbed.length)).TimesOut
        (climbed.length + 1 + (s.config.maxIterations - 1 - climbed.length))) :
    s.run.TimesOut s.config.maxIterations := by
  have hrest : climbed.length + 1 + (s.config.maxIterations - 1 - climbed.length) =
      s.config.maxIterations := by omega
  rw [hrest] at hout
  rw [run_of_climbs hclimb, if_pos (by rwa [room_cons]), proceed, hsome]
  exact hout

/-- Every run has a course, or the cap stops it before the course ends. -/
theorem course_or_timesOut (s : Simulator) :
    (∃ observed outcome, s.Course observed outcome) ∨ s.run.TimesOut s.config.maxIterations := by
  rcases climb_cases s.controller s.primary .primary (s.config.maxIterations - 1) 1 s.initial with
    ⟨climbed, outcome, hclimb, hroom⟩ | ⟨hend, hlen⟩
  · cases outcome with
    | error fault => exact .inl ⟨_, _, .primaryFails hclimb⟩
    | ok state =>
      cases hsecondary : s.secondary with
      | none => exact .inl ⟨_, _, .single hsecondary hclimb⟩
      | some curve =>
        rcases s.runSecond_cases curve climbed state (s.config.maxIterations - 1 - climbed.length) with
          ⟨observed, outcome, h⟩ | hout
        · exact .inl ⟨_, _, .of_second hsecondary hclimb h⟩
        · have hcap := s.valid.bounds.2
          have hfits := Nat.le_trans (length_le_room _ _) hroom
          exact .inr (timesOut_of_second hsecondary hclimb (by omega) hout)
  · exact .inr (timesOut_of_first hend hlen)

/-- Every run is a course that fits within the cap, or the cap stops it. -/
theorem run_cases (s : Simulator) :
    (∃ observed outcome, s.Course observed outcome ∧
        room observed outcome ≤ s.config.maxIterations ∧ s.run = ⟨observed, outcome⟩) ∨
      s.run.TimesOut s.config.maxIterations := by
  rcases s.course_or_timesOut with ⟨observed, outcome, h⟩ | h
  · have hrun := h.run_eq
    rcases Run.within_cases s.config.maxIterations observed outcome with hroom | hout
    · exact .inl ⟨observed, outcome, h, hroom, by rw [hrun, Run.within_of_le hroom]⟩
    · exact .inr (hrun ▸ hout)
  · exact .inr h

/-- A run that succeeds shows its course. -/
theorem course_of_ok {trace : Trace} (h : s.run.result = .ok trace) :
    s.Course s.run.observed (.ok trace) := by
  rcases s.run_cases with ⟨observed, outcome, hcourse, -, hrun⟩ | ⟨hout, -⟩
  · rw [hrun] at h ⊢
    dsimp only at h
    rwa [h] at hcourse
  · rw [hout] at h
    cases h

/-! ## Faults -/

/-- Why an iteration fails: one of the curves has no bandwidth for the ratio, or the law has no next
state. -/
def IterationFault (s : Simulator) (fault : ControlFault) : Prop :=
  ∃ curve state, (curve = s.primary ∨ s.secondary = some curve) ∧
    (curve.get state.ratio = .error fault ∨ ∃ bandwidth, curve.get state.ratio = .ok bandwidth ∧
      s.controller.advance state bandwidth = .error fault)

theorem IterationFault.ne_noConvergence {fault : ControlFault} (h : s.IterationFault fault) (n : Nat) :
    fault ≠ .noConvergence n := by
  obtain ⟨curve, state, -, h | ⟨bandwidth, -, h⟩⟩ := h
  · rintro rfl
    unfold Curve.get at h
    split at h <;> cases h
  · exact ControllerConfig.advance_ne_noConvergence h n

/-- A course that fails does so in an iteration. -/
theorem Course.iterationFault {observed : List Observation} {fault : ControlFault}
    (h : s.Course observed (.error fault)) : s.IterationFault fault := by
  cases h with
  | primaryFails hclimb =>
    obtain ⟨state, h⟩ := hclimb.exists_iterate
    exact ⟨s.primary, state, .inl rfl, Controller.iterate_error h⟩
  | secondaryFails hsome _ hclimb =>
    obtain ⟨state, h⟩ := hclimb.exists_iterate
    exact ⟨_, state, .inr hsome, Controller.iterate_error h⟩

/-! ## Other caps -/

/-- The simulator with another cap. -/
def withCap (s : Simulator) (cap : Nat) (h : 0 < cap) : Simulator :=
  { s with
    config := { s.config with maxIterations := cap }
    valid := by
      have hvalid := s.valid
      unfold SimulatorConfig.Valid SimulatorConfig.fault? at hvalid ⊢
      grind }

/-- A simulator is another one with its own cap, if they agree on all else. -/
theorem eq_withCap {s s' : Simulator} (hcontroller : s'.controller = s.controller)
    (hprimary : s'.primary = s.primary) (hsecondary : s'.secondary = s.secondary)
    (hhold : s'.config.holdIterations = s.config.holdIterations)
    (hratio : s'.config.initialRatio = s.config.initialRatio)
    (hbandwidth : s'.config.initialBandwidth = s.config.initialBandwidth) :
    s' = s.withCap s'.config.maxIterations s'.valid.bounds.2 := by
  obtain ⟨controller, ⟨ratio, bandwidth, hold, cap⟩, valid, primary, secondary⟩ := s
  obtain ⟨controller', ⟨ratio', bandwidth', hold', cap'⟩, valid', primary', secondary'⟩ := s'
  cases hcontroller
  cases hprimary
  cases hsecondary
  cases hhold
  cases hratio
  cases hbandwidth
  rfl

/-- A course knows no cap. -/
theorem Course.withCap {observed : List Observation} {outcome : Except ControlFault Trace}
    (h : s.Course observed outcome) {cap : Nat} (hcap : 0 < cap) :
    (s.withCap cap hcap).Course observed outcome := by
  cases h with
  | primaryFails hclimb => exact .primaryFails hclimb
  | single hnone hclimb => exact .single hnone hclimb
  | secondaryFails hsome hclimb hsecond => exact .secondaryFails hsome hclimb hsecond
  | double hsome hclimb hsecond => exact .double hsome hclimb hsecond

theorem Course.points_eq {observed : List Observation} {trace : Trace}
    (h : s.Course observed (.ok trace)) : trace.points = observed.map (·.point) := by
  cases h <;> rfl

/-- Bandwidths that rise with the ratio, and rise higher after the workload has changed. The first
climb ends at once, with a step that the top of the range has no room for. -/
def rising : Simulator where
  controller := ⟨{}, by decide⟩
  config := { initialBandwidth := 500.0, holdIterations := 1 }
  valid := by decide
  primary :=
    ⟨[⟨0, 300.0⟩, ⟨100, 400.0⟩], by decide, by simp [CurvePoint.Ascending], by decide, by decide⟩
  secondary := some
    ⟨[⟨0, 400.0⟩, ⟨100, 500.0⟩], by decide, by simp [CurvePoint.Ascending], by decide, by decide⟩

/-- A curve that the first step leads out of. -/
def narrow : Simulator where
  controller := ⟨{}, by decide⟩
  config := { initialBandwidth := 100.0 }
  valid := by decide
  primary :=
    ⟨[⟨95, 300.0⟩, ⟨100, 400.0⟩], by decide, by simp [CurvePoint.Ascending], by decide, by decide⟩
  secondary := none

/-- The trace of `rising`. -/
def risingTrace : Trace where
  points := [
    ⟨0, .primary, 100, 0, 500.0, none⟩,
    ⟨1, .primary, 100, 8, 400.0, some .coldStart⟩,
    ⟨2, .primary, 100, 0, 400.0, none⟩,
    ⟨3, .secondary, 92, -8, 500.0, some .coldStart⟩,
    ⟨4, .secondary, 96, 4, 492.0, some .regressing⟩,
    ⟨5, .secondary, 96, 0, 496.0, some .improving⟩]
  primaryConvergedAt := some 1
  switchedAt := some 3
  secondaryConvergedAt := some 5

theorem rising_run : rising.run.result = .ok risingTrace := by decide +kernel

/-- The cap only truncates. A run that succeeds within some cap does so within every cap that leaves
room for its points, and otherwise times out after as many of them as the cap allows; a run that fails
does so within every cap that leaves room for one point more. No run records more points than its cap,
and a fault that says it timed out names the cap. -/
theorem cap_only_truncates (s : Simulator) :
    (∀ trace, s.run.result = .ok trace →
      trace.points = s.run.observed.map (·.point) ∧ ∀ (cap : Nat) (hcap : 0 < cap),
        (trace.points.length ≤ cap → (s.withCap cap hcap).run = s.run) ∧
        (cap < trace.points.length → (s.withCap cap hcap).run =
          ⟨s.run.observed.take cap, .error (.noConvergence cap)⟩)) ∧
    (∀ fault, s.run.result = .error fault → (∀ n, fault ≠ .noConvergence n) →
      ∀ (cap : Nat) (hcap : 0 < cap),
        (s.run.observed.length < cap → (s.withCap cap hcap).run = s.run) ∧
        (cap ≤ s.run.observed.length → (s.withCap cap hcap).run =
          ⟨s.run.observed.take cap, .error (.noConvergence cap)⟩)) ∧
    s.run.observed.length ≤ s.config.maxIterations ∧
    ∀ n, s.run.result = .error (.noConvergence n) → n = s.config.maxIterations := by
  rcases s.run_cases with ⟨observed, outcome, hcourse, hroom, hrun⟩ | ⟨hout, hlen⟩
  · have hother {cap : Nat} (hcap : 0 < cap) :
        (s.withCap cap hcap).run = .within cap observed outcome := (hcourse.withCap hcap).run_eq
    rw [hrun]
    refine ⟨?_, ?_, Nat.le_trans (length_le_room _ _) hroom, ?_⟩
    · rintro trace rfl
      have hpoints := hcourse.points_eq
      refine ⟨hpoints, ?_⟩
      intro cap hcap
      rw [hother hcap, hpoints, List.length_map]
      exact ⟨fun h => Run.within_of_le h, fun h => Run.within_of_lt h⟩
    · rintro fault rfl - cap hcap
      rw [hother hcap]
      exact ⟨fun h => Run.within_of_le h, fun h => Run.within_of_lt (Nat.lt_succ_of_le h)⟩
    · rintro n rfl
      exact absurd rfl (hcourse.iterationFault.ne_noConvergence n)
  · rw [hout, hlen]
    refine ⟨?_, ?_, Nat.le_refl _, ?_⟩
    · intro trace h
      cases h
    · intro fault h hne
      cases h
      exact absurd rfl (hne _)
    · intro n h
      cases h
      rfl

/-- One simulator that succeeds within 6 points, and one whose curve does not reach far enough. -/
theorem cap_only_truncates_rising :
    (rising.withCap 6 (by decide)).run = rising.run ∧
      (rising.withCap 3 (by decide)).run = ⟨rising.run.observed.take 3, .error (.noConvergence 3)⟩ ∧
      (narrow.withCap 3 (by decide)).run = narrow.run ∧
      (narrow.withCap 2 (by decide)).run = ⟨narrow.run.observed.take 2, .error (.noConvergence 2)⟩ := by
  obtain ⟨-, hok⟩ := (cap_only_truncates rising).1 risingTrace rising_run
  have hfault := (cap_only_truncates narrow).2.1 (.ratioOutOfRange 92 95 100) (by decide +kernel)
    nofun
  have hlen : narrow.run.observed.length = 2 := by decide +kernel
  exact ⟨(hok 6 (by decide)).1 (by decide), (hok 3 (by decide)).2 (by decide),
    (hfault 3 (by decide)).1 (by omega), (hfault 2 (by decide)).2 (by omega)⟩

end Simulator

end Interleave
