import Interleave.Proofs.Simulation.Replay

/-!
# How observations follow one another

The cap may cut a run anywhere, so the points of a run need not be those of a whole course. What holds
of every run is how each observation follows the one before it (`Link`): by an iteration on the curve
of its phase, from rest where the phase is new, or by holding the state. `convergences` are the
iterations at which the climbs of the run converge, also of a run that fails later.

Results:
* `climb_link`: every point of a climb, cut or not, is an iteration from the point before it, and
  repeats its ratio exactly where the climb converges.
* `run_link`: every two neighbouring observations of a run are linked.
* `convergences_of_ok`: the convergences of a run that succeeds are the markers of its trace.
-/
namespace Interleave

/-! ## Climbs that may be cut -/

section
variable {controller : Controller} {curve : Curve} {phase : Phase} {budget i : Nat}
  {state : ControlState}

/-- A climb that converges does so at its last point, and takes the points that are not left. -/
theorem climbs_of_converged {at' left : Nat} {final : ControlState}
    (h : (climb controller curve phase budget i state).2 = .converged at' final left) :
    Climbs controller curve phase i state (climb controller curve phase budget i state).1
        (.ok final) ∧
      at' + 1 = i + (climb controller curve phase budget i state).1.length ∧
      left + (climb controller curve phase budget i state).1.length = budget := by
  rcases climb_cases controller curve phase budget i state with
    ⟨observed, outcome, hclimb, hroom⟩ | ⟨hend, -⟩
  · have heq := hclimb.climb_eq budget
    rw [if_pos hroom] at heq
    rw [heq] at h ⊢
    cases outcome with
    | error fault => cases h
    | ok state' =>
      obtain ⟨before, decision, hlast⟩ := hclimb.exists_last
      have hlen : observed.length = before.length + 1 := by simp [hlast]
      simp only [Ending.of, Ending.converged.injEq] at h
      obtain ⟨rfl, rfl, rfl⟩ := h
      rw [room] at hroom
      exact ⟨hclimb, by dsimp only; omega, by dsimp only; omega⟩
  · rw [hend] at h
    cases h

/-- Every point is an iteration from the point before it, and the one that repeats a ratio is where
the climb converges. -/
theorem climb_link (start : Observation) {before here : Observation} {k : Nat}
    (hstart : start.point.state = state)
    (hbefore : (start :: (climb controller curve phase budget i state).1)[k]? = some before)
    (hhere : (climb controller curve phase budget i state).1[k]? = some here) :
    ∃ next decision, controller.iterate curve before.point.state = .ok (next, decision) ∧
      here = .record (i + k) phase next (some decision) ∧
      (next.ratio = before.point.ratio ↔ ∃ final left,
        (climb controller curve phase budget i state).2 = .converged (i + k) final left) := by
  -- as for a whole climb, `start` goes along with the induction
  induction budget generalizing i state start k with
  | zero => simp [climb] at hhere
  | succ budget ih =>
    subst hstart
    unfold climb at hbefore hhere ⊢
    cases hstep : controller.iterate curve start.point.state with
    | error fault => simp [hstep] at hhere
    | ok step =>
      obtain ⟨next, decision⟩ := step
      simp only [hstep] at hbefore hhere ⊢
      by_cases hratio : next.ratio = start.point.state.ratio
      · rw [if_pos hratio] at hbefore hhere ⊢
        cases k with
        | zero =>
          cases hbefore
          cases hhere
          exact ⟨next, decision, hstep, rfl, iff_of_true hratio ⟨_, _, rfl⟩⟩
        | succ k => simp at hhere
      · rw [if_neg hratio] at hbefore hhere ⊢
        cases k with
        | zero =>
          cases hbefore
          cases hhere
          refine ⟨next, decision, hstep, rfl, iff_of_false hratio ?_⟩
          rintro ⟨final, left, hend⟩
          obtain ⟨hclimb, hat, -⟩ := climbs_of_converged hend
          obtain ⟨front, last, hlast⟩ := hclimb.exists_last
          have hlen := congrArg List.length hlast
          rw [List.length_append, List.length_singleton] at hlen
          omega
        | succ k =>
          obtain ⟨next', decision', hstep', hrecord, hend⟩ := ih _ rfl hbefore hhere
          have hindex : i + 1 + k = i + (k + 1) := by omega
          rw [hindex] at hrecord hend
          exact ⟨next', decision', hstep', hrecord, hend⟩

/-- A climb records points of its own phase, all with a decision. -/
theorem mem_climb {o : Observation} (h : o ∈ (climb controller curve phase budget i state).1) :
    ∃ j next decision, o = .record j phase next (some decision) := by
  obtain ⟨k, hk⟩ := List.mem_iff_getElem?.1 h
  have hlt := (List.getElem?_eq_some_iff.1 hk).1
  obtain ⟨next, decision, -, heq, -⟩ := climb_link (.record 0 phase state none) rfl
    (List.getElem?_eq_getElem (by rw [List.length_cons]; exact Nat.lt_succ_of_lt hlt)) hk
  exact ⟨_, next, decision, heq⟩

end

namespace Simulator

variable (s : Simulator)

/-- The first climb of a run, as far as the cap allows. -/
def firstClimb : List Observation × Ending :=
  climb s.controller s.primary .primary (s.config.maxIterations - 1) 1 s.initial

/-- The second climb of a run, where the first one has converged in `state` and left so many points. -/
def secondClimb (curve : Curve) (state : ControlState) (left : Nat) : List Observation × Ending :=
  climb s.controller curve .secondary (left - s.config.holdIterations)
    (s.beforeSwitch s.firstClimb.1 state).length state.atRest

/-- The iterations at which the climbs of a run converge. -/
def convergences : List Nat :=
  match s.firstClimb.2 with
  | .converged primaryAt state left =>
    primaryAt :: match s.secondary with
      | none => []
      | some curve =>
        if left < s.config.holdIterations then []
        else match (s.secondClimb curve state left).2 with
          | .converged secondaryAt _ _ => [secondaryAt]
          | _ => []
  | _ => []

variable {s} in
/-- A climb converges: the first one, or the second one after the whole hold. -/
theorem mem_convergences_iff {k : Nat} : k ∈ s.convergences ↔
    ∃ primaryAt state left, s.firstClimb.2 = .converged primaryAt state left ∧
      (k = primaryAt ∨ ∃ curve final left', s.secondary = some curve ∧
        s.config.holdIterations ≤ left ∧
        (s.secondClimb curve state left).2 = .converged k final left') := by
  unfold convergences
  cases s.firstClimb.2 with
  | outOfPoints => simp
  | failed fault => simp
  | converged primaryAt state left =>
    cases s.secondary with
    | none => simp
    | some curve =>
      by_cases hhold : left < s.config.holdIterations
      · simp [hhold]
      · cases hsecond : (s.secondClimb curve state left).2 <;>
          simp [hhold, Nat.not_lt.1 hhold, hsecond, eq_comm]

/-- How an observation follows the one before it, which is number `k`. -/
inductive Link (k : Nat) (before : Observation) : Observation → Prop
  /-- An iteration on the curve of its phase, from rest where the phase is new. -/
  | stepped {phase curve state next decision} : s.curveOf phase = some curve →
      (before.point.phase = .secondary → phase = .secondary) →
      state = (if phase = before.point.phase then before.point.state
        else before.point.state.atRest) →
      s.controller.iterate curve state = .ok (next, decision) →
      (next.ratio = before.point.ratio ↔ k + 1 ∈ s.convergences) →
      Link k before (.record (k + 1) phase next (some decision))
  /-- The same state without a step, in the first phase, where nothing converges. -/
  | held : before.point.phase = .primary → k + 1 ∉ s.convergences →
      Link k before (.record (k + 1) .primary before.point.state.atRest none)

variable {s}

theorem Link.iteration {k : Nat} {before here : Observation} (h : s.Link k before here) :
    here.point.iteration = k + 1 := by
  cases h <;> rfl

/-! ## The parts of a run -/

theorem run_eq (s : Simulator) : s.run = match s.firstClimb.2 with
    | .outOfPoints => ⟨s.first :: s.firstClimb.1, .error (.noConvergence (s.firstClimb.1.length + 1))⟩
    | .failed fault => ⟨s.first :: s.firstClimb.1, .error fault⟩
    | .converged primaryAt state left =>
      match s.secondary with
      | none => ⟨s.first :: s.firstClimb.1,
          .ok (.ofObserved (s.first :: s.firstClimb.1) (some primaryAt) none none)⟩
      | some curve => s.runSecond curve (s.first :: s.firstClimb.1) primaryAt state left :=
  s.run_eq_told

/-- What a run observes that comes to the second climb. -/
theorem observed_of_le {curve : Curve} {primaryAt left : Nat} {state : ControlState}
    (hsome : s.secondary = some curve) (hend : s.firstClimb.2 = .converged primaryAt state left)
    (hhold : s.config.holdIterations ≤ left) :
    s.run.observed = s.beforeSwitch s.firstClimb.1 state ++ (s.secondClimb curve state left).1 := by
  rw [run_eq, hend, hsome]
  dsimp only
  rw [runSecond_of_le _ _ _ _ hhold]
  unfold secondClimb
  generalize climb s.controller curve .secondary _ _ _ = climbed
  obtain ⟨observed, ending⟩ := climbed
  cases ending <;> rfl

/-- What a run observes, wherever it is cut. -/
theorem observed_cases (s : Simulator) :
    s.run.observed = s.first :: s.firstClimb.1 ∨
    ∃ curve primaryAt state left, s.secondary = some curve ∧
      s.firstClimb.2 = .converged primaryAt state left ∧
      (left < s.config.holdIterations ∧ s.run.observed =
          (s.beforeSwitch s.firstClimb.1 state).take (s.firstClimb.1.length + 1 + left) ∨
        s.config.holdIterations ≤ left ∧ s.run.observed =
          s.beforeSwitch s.firstClimb.1 state ++ (s.secondClimb curve state left).1) := by
  cases hend : s.firstClimb.2 with
  | outOfPoints => exact .inl (by rw [run_eq, hend])
  | failed fault => exact .inl (by rw [run_eq, hend])
  | converged primaryAt state left =>
    cases hsecondary : s.secondary with
    | none => exact .inl (by rw [run_eq, hend, hsecondary])
    | some curve =>
      refine .inr ⟨curve, primaryAt, state, left, rfl, rfl, ?_⟩
      rcases Nat.lt_or_ge left s.config.holdIterations with hhold | hhold
      · refine .inl ⟨hhold, ?_⟩
        rw [run_eq, hend, hsecondary]
        dsimp only
        rw [runSecond_of_lt _ _ _ _ hhold]
      · exact .inr ⟨hhold, observed_of_le hsecondary hend hhold⟩

theorem climbs_first {primaryAt left : Nat} {state : ControlState}
    (h : s.firstClimb.2 = .converged primaryAt state left) :
    Climbs s.controller s.primary .primary 1 s.initial s.firstClimb.1 (.ok state) ∧
      primaryAt = s.firstClimb.1.length := by
  obtain ⟨hclimb, hat, -⟩ := climbs_of_converged h
  exact ⟨hclimb, by unfold firstClimb; omega⟩

/-- The second climb converges after the switch. -/
theorem le_secondaryAt {curve : Curve} {state final : ControlState} {left left' secondaryAt : Nat}
    (h : (s.secondClimb curve state left).2 = .converged secondaryAt final left') :
    (s.beforeSwitch s.firstClimb.1 state).length ≤ secondaryAt := by
  obtain ⟨hclimb, hat, -⟩ := climbs_of_converged h
  obtain ⟨front, last, hlast⟩ := hclimb.exists_last
  have hlen := congrArg List.length hlast
  rw [List.length_append, List.length_singleton] at hlen
  omega

/-! ## Links -/

variable {before here : Observation} {k : Nat}

theorem phase_first_climb (h : (s.first :: s.firstClimb.1)[k]? = some before) :
    before.point.phase = .primary := by
  rcases get_first_phase h with ⟨rfl, rfl⟩ | ⟨j, rfl, hj⟩
  · rfl
  · obtain ⟨-, next, decision, rfl⟩ := mem_climb (List.mem_of_getElem? hj)
    rfl

/-- All points before the switch are in the first phase. -/
theorem phase_beforeSwitch {state : ControlState}
    (h : (s.beforeSwitch s.firstClimb.1 state)[k]? = some before) : before.point.phase = .primary := by
  rw [← List.append_nil (s.beforeSwitch _ _)] at h
  rcases get_both_phases h with ⟨-, hearly⟩ | ⟨-, -, rfl⟩ | ⟨j, -, hj⟩
  · exact phase_first_climb hearly
  · rfl
  · cases hj

/-- The convergences up to the end of the first climb are those of the first climb. -/
theorem mem_convergences_first (hk : k ≤ s.firstClimb.1.length) :
    k ∈ s.convergences ↔ ∃ final left, s.firstClimb.2 = .converged k final left := by
  rw [mem_convergences_iff]
  constructor
  · intro h
    obtain ⟨primaryAt, state, left, hend, rfl | ⟨curve, final, left', -, -, hconverged⟩⟩ := h
    · exact ⟨state, left, hend⟩
    · have hle := le_secondaryAt hconverged
      rw [length_beforeSwitch] at hle
      omega
  · intro h
    obtain ⟨final, left, hend⟩ := h
    exact ⟨k, final, left, hend, .inl rfl⟩

theorem link_first_climb (hbefore : (s.first :: s.firstClimb.1)[k]? = some before)
    (hhere : s.firstClimb.1[k]? = some here) : s.Link k before here := by
  have hphase := phase_first_climb hbefore
  have hk := (List.getElem?_eq_some_iff.1 hhere).1
  obtain ⟨next, decision, hstep, rfl, hend⟩ := climb_link s.first rfl hbefore hhere
  rw [Nat.add_comm 1] at hend ⊢
  refine .stepped rfl ?_ (by rw [hphase, if_pos rfl]) hstep ?_
  · rw [hphase]
    nofun
  · exact hend.trans (mem_convergences_first hk).symm

/-- The convergences from the switch on are those of the second climb. -/
theorem mem_convergences_second {curve : Curve} {primaryAt left : Nat} {state : ControlState}
    (hsome : s.secondary = some curve) (hend : s.firstClimb.2 = .converged primaryAt state left)
    (hhold : s.config.holdIterations ≤ left)
    (hk : (s.beforeSwitch s.firstClimb.1 state).length ≤ k) :
    k ∈ s.convergences ↔
      ∃ final left', (s.secondClimb curve state left).2 = .converged k final left' := by
  obtain ⟨-, rfl⟩ := climbs_first hend
  rw [length_beforeSwitch] at hk
  rw [mem_convergences_iff]
  constructor
  · intro h
    obtain ⟨primaryAt, state', left', heq, rfl | ⟨curve', final, left'', hsome', -, hconverged⟩⟩ := h
    · cases hend.symm.trans heq
      omega
    · cases hend.symm.trans heq
      cases hsome.symm.trans hsome'
      exact ⟨final, left'', hconverged⟩
  · intro h
    obtain ⟨final, left', hconverged⟩ := h
    exact ⟨_, state, left, hend, .inr ⟨curve, final, left', hsome, hhold, hconverged⟩⟩

/-- Nothing converges while a state is held. -/
theorem not_mem_convergences {primaryAt left : Nat} {state : ControlState}
    (hend : s.firstClimb.2 = .converged primaryAt state left) (hlo : s.firstClimb.1.length < k)
    (hhi : k < (s.beforeSwitch s.firstClimb.1 state).length) : k ∉ s.convergences := by
  obtain ⟨-, rfl⟩ := climbs_first hend
  rw [mem_convergences_iff, hend]
  intro h
  obtain ⟨primaryAt, state', left', heq, rfl | ⟨curve, final, left'', -, -, hconverged⟩⟩ := h
  · cases heq
    exact absurd hlo (lt_irrefl _)
  · cases heq
    have hle := le_secondaryAt hconverged
    omega

/-- Neighbours before the switch, where the first climb has converged. -/
theorem link_beforeSwitch {primaryAt left : Nat} {state : ControlState}
    (hend : s.firstClimb.2 = .converged primaryAt state left)
    (hbefore : (s.beforeSwitch s.firstClimb.1 state)[k]? = some before)
    (hhere : (s.beforeSwitch s.firstClimb.1 state)[k + 1]? = some here) : s.Link k before here := by
  have hphase := phase_beforeSwitch hbefore
  rw [← List.append_nil (s.beforeSwitch _ _)] at hbefore hhere
  rcases get_both_phases hhere with ⟨hk, hearly⟩ | ⟨hlo, hhi, rfl⟩ | ⟨j, -, hj⟩
  · rw [get_of_le (by omega)] at hbefore
    exact link_first_climb hbefore hearly
  · have hquiet := not_mem_convergences hend hlo hhi
    have hstate : before.point.state.atRest = state.atRest := by
      rcases get_both_phases hbefore with ⟨hk, hearly⟩ | ⟨-, -, rfl⟩ | ⟨j, -, hj⟩
      · obtain ⟨front, last, hlast⟩ := (climbs_first hend).1.exists_last
        obtain rfl : k = front.length + 1 := by
          have hlen := congrArg List.length hlast
          rw [List.length_append, List.length_singleton] at hlen
          omega
        rw [hlast] at hearly
        simp only [List.getElem?_cons_succ, List.getElem?_concat_length, Option.some.injEq] at hearly
        rw [← hearly]
        rfl
      · rfl
      · cases hj
    rw [← hstate]
    exact .held hphase hquiet
  · cases hj

/-- The observation that a climb from rest shows before number `j` has the state that the point before it
leads to: its own state within the second phase, and the last one before the switch at rest. -/
theorem shown_second_climb {curve : Curve} {primaryAt left : Nat} {state : ControlState}
    (hend : s.firstClimb.2 = .converged primaryAt state left) {j : Nat}
    (hk : k + 1 = (s.beforeSwitch s.firstClimb.1 state).length + j)
    (hbefore : (s.beforeSwitch s.firstClimb.1 state ++ (s.secondClimb curve state left).1)[k]? =
      some before) {start shown : Observation} (hstart : start.point.state = state.atRest)
    (hshown : (start :: (s.secondClimb curve state left).1)[j]? = some shown) :
    shown.point.state = if Phase.secondary = before.point.phase then before.point.state
      else before.point.state.atRest := by
  obtain ⟨hfirst, rfl⟩ := climbs_first hend
  cases j with
  | zero =>
    cases hshown
    obtain ⟨front, last, hfront, hlast⟩ := exists_last_beforeSwitch (s := s) hfirst
    have hlen := congrArg List.length hfront
    rw [List.length_append, List.length_singleton] at hlen
    obtain rfl : k = front.length := by omega
    rw [List.getElem?_append_left (by omega)] at hbefore
    have hphase := phase_beforeSwitch hbefore
    rw [hfront, List.getElem?_concat_length] at hbefore
    cases hbefore
    rw [hphase, if_neg nofun, hlast, hstart]
  | succ j =>
    have hindex : k - (s.beforeSwitch s.firstClimb.1 state).length = j := by omega
    rw [List.getElem?_append_right (by omega), hindex] at hbefore
    rw [List.getElem?_cons_succ, hbefore] at hshown
    cases hshown
    obtain ⟨-, next, decision, rfl⟩ := mem_climb (List.mem_of_getElem? hbefore)
    rfl

/-- Neighbours in the second phase. The first of its points follows the last one before the switch. -/
theorem link_second_climb {curve : Curve} {primaryAt left : Nat} {state : ControlState}
    (hsome : s.secondary = some curve) (hend : s.firstClimb.2 = .converged primaryAt state left)
    (hhold : s.config.holdIterations ≤ left) {j : Nat}
    (hk : k + 1 = (s.beforeSwitch s.firstClimb.1 state).length + j)
    (hbefore : (s.beforeSwitch s.firstClimb.1 state ++ (s.secondClimb curve state left).1)[k]? =
      some before)
    (hhere : (s.secondClimb curve state left).1[j]? = some here) : s.Link k before here := by
  -- the point that the climb itself starts from: that of the hold, or the convergence at rest
  let start : Observation := .record 0 .primary state.atRest none
  obtain ⟨shown, hshown⟩ : ∃ shown, (start :: (s.secondClimb curve state left).1)[j]? = some shown :=
    ⟨_, List.getElem?_eq_getElem (by
      rw [List.length_cons]
      exact Nat.lt_succ_of_lt (List.getElem?_eq_some_iff.1 hhere).1)⟩
  obtain ⟨next, decision, hstep, rfl, hconverged⟩ := climb_link start rfl hshown hhere
  have hstate := shown_second_climb hend hk hbefore rfl hshown
  have hratio : shown.point.ratio = before.point.ratio := by
    have hstates := congrArg ControlState.ratio hstate
    split at hstates <;> exact hstates
  rw [hratio, ← hk] at hconverged
  rw [← hk]
  refine .stepped hsome (fun _ => rfl) hstate hstep ?_
  exact hconverged.trans (mem_convergences_second hsome hend hhold (by omega)).symm

/-- Every two neighbouring observations of a run are linked. -/
theorem run_link (hbefore : s.run.observed[k]? = some before)
    (hhere : s.run.observed[k + 1]? = some here) : s.Link k before here := by
  rcases s.observed_cases with hrun | ⟨curve, primaryAt, state, left, hsome, hend, hcut | hrun⟩
  · rw [hrun] at hbefore hhere
    exact link_first_climb hbefore hhere
  · rw [hcut.2] at hbefore hhere
    have hk : k + 1 < s.firstClimb.1.length + 1 + left :=
      Nat.lt_of_lt_of_le (List.getElem?_eq_some_iff.1 hhere).1 (List.length_take_le _ _)
    rw [List.getElem?_take_of_lt (by omega)] at hbefore hhere
    exact link_beforeSwitch hend hbefore hhere
  · rw [hrun.2] at hbefore hhere
    rcases Nat.lt_or_ge (k + 1) (s.beforeSwitch s.firstClimb.1 state).length with hk | hk
    · rw [List.getElem?_append_left (by omega)] at hbefore hhere
      exact link_beforeSwitch hend hbefore hhere
    · rw [List.getElem?_append_right hk] at hhere
      exact link_second_climb hsome hend hrun.1 (Nat.add_sub_cancel' hk).symm hbefore hhere

/-- The first observation of a run is the configured one. -/
theorem run_head (s : Simulator) : s.run.observed[0]? = some s.first := by
  rcases s.observed_cases with hrun | ⟨curve, primaryAt, state, left, -, -, hcut | hrun⟩
  · rw [hrun]
    rfl
  · rw [hcut.2, List.getElem?_take_of_lt (by omega)]
    rfl
  · rw [hrun.2]
    rfl

theorem exists_observed (s : Simulator) : ∃ observed, s.run.observed = s.first :: observed := by
  have hhead := s.run_head
  cases hrun : s.run.observed with
  | nil =>
    rw [hrun] at hhead
    cases hhead
  | cons o observed =>
    rw [hrun] at hhead
    cases hhead
    exact ⟨observed, rfl⟩

theorem exists_before (hhere : s.run.observed[k + 1]? = some here) :
    ∃ before, s.run.observed[k]? = some before :=
  ⟨_, List.getElem?_eq_getElem (Nat.lt_of_succ_lt (List.getElem?_eq_some_iff.1 hhere).1)⟩

/-- What holds of the first observation and is kept by every link holds of every observation. -/
theorem run_induction (s : Simulator) {P : Nat → Observation → Prop} (hfirst : P 0 s.first)
    (hlink : ∀ k before here, P k before → s.Link k before here → P (k + 1) here)
    (hhere : s.run.observed[k]? = some here) : P k here := by
  induction k generalizing here with
  | zero =>
    rw [run_head] at hhere
    cases hhere
    exact hfirst
  | succ k ih =>
    obtain ⟨before, hbefore⟩ := exists_before hhere
    exact hlink k before here (ih hbefore) (run_link hbefore hhere)

/-- The convergences of a run that succeeds are the markers of its trace. -/
theorem convergences_of_ok {t : Trace} (h : s.run.result = .ok t) :
    s.convergences = t.primaryConvergedAt.toList ++ t.secondaryConvergedAt.toList := by
  rw [run_eq] at h
  unfold convergences
  cases hend : s.firstClimb.2 with
  | outOfPoints => simp [hend] at h
  | failed fault => simp [hend] at h
  | converged primaryAt state left =>
    rw [hend] at h
    cases hsecondary : s.secondary with
    | none =>
      rw [hsecondary] at h
      cases h
      rfl
    | some curve =>
      rw [hsecondary] at h
      dsimp only at h ⊢
      rcases Nat.lt_or_ge left s.config.holdIterations with hhold | hhold
      · rw [runSecond_of_lt _ _ _ _ hhold] at h
        cases h
      · rw [runSecond_of_le _ _ _ _ hhold] at h
        rw [if_neg (Nat.not_lt.2 hhold)]
        unfold secondClimb
        generalize climb s.controller curve .secondary _ _ _ = climbed at h
        obtain ⟨observed, ending⟩ := climbed
        cases ending <;> cases h
        rfl

end Simulator

end Interleave
