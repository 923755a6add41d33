import Interleave.Proofs.Simulation.Record

/-!
# Climbs without a budget

`Climbs` is the climb of a curve as the control law has it, without a count of the points that may
still be recorded: some points, then convergence or a fault. A climb within a budget is such a climb
if there is room for it (`room`) and its first points otherwise (`Climbs.climb_eq`), and every climb
within a budget comes about in this way (`climb_cases`).

Results:
* `climb_eq`, `climb_cases`: the budget only truncates.
* `link`: every point of a climb is what the law makes of the point before it.
* `repeats_iff`: the ratio repeats at the last point of a converged climb and nowhere else.
-/
namespace Interleave

/-- The state that a point shows. -/
def TracePoint.state (p : TracePoint) : ControlState := ⟨p.ratio, p.step, p.bandwidth⟩

/-- Whether a point of a phase follows from a decision of the law. -/
def Observation.controlledIn (phase : Phase) (o : Observation) : Bool :=
  o.point.phase = phase && o.decision.isSome

/-- The room that points and what comes after them take up: a fault shows only where another point
could have been recorded. -/
def room {α : Type} (observed : List Observation) : Except ControlFault α → Nat
  | .ok _ => observed.length
  | .error _ => observed.length + 1

section
variable {α β : Type} (before observed : List Observation) (outcome : Except ControlFault α)

@[simp] theorem room_append :
    room (before ++ observed) outcome = before.length + room observed outcome := by
  cases outcome <;> simp [room, Nat.add_assoc]

@[simp] theorem room_cons (here : Observation) :
    room (here :: observed) outcome = room observed outcome + 1 := by
  cases outcome <;> simp [room]

@[simp] theorem room_map (f : α → β) : room observed (outcome.map f) = room observed outcome := by
  cases outcome <;> rfl

theorem length_le_room : observed.length ≤ room observed outcome := by
  cases outcome <;> simp [room]

theorem room_le_succ : room observed outcome ≤ observed.length + 1 := by
  cases outcome <;> simp [room]

end

/-! ## Iterations -/

theorem Controller.iterate_ok {controller : Controller} {curve : Curve} {state next : ControlState}
    {decision : Decision} (h : controller.iterate curve state = .ok (next, decision)) :
    curve.get state.ratio = .ok next.bandwidth ∧
      controller.advance state next.bandwidth = .ok (next, decision) := by
  unfold iterate at h
  cases hget : curve.get state.ratio with
  | error e =>
    rw [hget] at h
    cases h
  | ok observed =>
    rw [hget] at h
    have hadvance : controller.advance state observed = .ok (next, decision) := h
    rw [ControllerConfig.advance_bandwidth hadvance]
    exact ⟨rfl, hadvance⟩

/-- An iteration fails in the curve or in the control law. -/
theorem Controller.iterate_error {controller : Controller} {curve : Curve} {state : ControlState}
    {fault : ControlFault} (h : controller.iterate curve state = .error fault) :
    curve.get state.ratio = .error fault ∨ ∃ observed, curve.get state.ratio = .ok observed ∧
      controller.advance state observed = .error fault := by
  unfold iterate at h
  cases hget : curve.get state.ratio with
  | error e =>
    rw [hget] at h
    cases h
    exact .inl rfl
  | ok observed =>
    rw [hget] at h
    exact .inr ⟨observed, rfl, h⟩

theorem ControllerConfig.advance_ne_noConvergence {c : ControllerConfig} {prev : ControlState}
    {observed : Float} {fault : ControlFault} (h : c.advance prev observed = .error fault) (n : Nat) :
    fault ≠ .noConvergence n := by
  rintro rfl
  unfold advance propose relativeLoss at h
  repeat' split at h
  all_goals cases h

/-! ## The relation -/

section
variable (controller : Controller) (curve : Curve) (phase : Phase)

/-- `Climbs controller curve phase iteration state observed outcome`: from `state`, the climb records
`observed`, from iteration `iteration` on, and ends in the converged state or a fault. -/
inductive Climbs :
    Nat → ControlState → List Observation → Except ControlFault ControlState → Prop
  | failed {i state fault} : controller.iterate curve state = .error fault →
      Climbs i state [] (.error fault)
  | converged {i state next decision} : controller.iterate curve state = .ok (next, decision) →
      next.ratio = state.ratio →
      Climbs i state [.record i phase next (some decision)] (.ok next)
  | moved {i state next decision observed outcome} :
      controller.iterate curve state = .ok (next, decision) → next.ratio ≠ state.ratio →
      Climbs (i + 1) next observed outcome →
      Climbs i state (.record i phase next (some decision) :: observed) outcome

end

/-- How a climb of `count` points from iteration `iteration` on ends, where `left` points may follow. -/
def Ending.of (iteration count left : Nat) : Except ControlFault ControlState → Ending
  | .ok state => .converged (iteration + count - 1) state left
  | .error fault => .failed fault

variable {controller : Controller} {curve : Curve} {phase : Phase} {i budget : Nat}
  {state final : ControlState} {observed : List Observation}
  {outcome : Except ControlFault ControlState}

/-! ## Climbs within a budget -/

theorem Climbs.climb_eq (h : Climbs controller curve phase i state observed outcome)
    (budget : Nat) : climb controller curve phase budget i state =
      if room observed outcome ≤ budget then
        (observed, .of i observed.length (budget - observed.length) outcome)
      else (observed.take budget, .outOfPoints) := by
  induction h generalizing budget with
  | failed hstep =>
    cases budget with
    | zero => rfl
    | succ budget => simp [climb, hstep, room, Ending.of]
  | converged hstep hratio =>
    cases budget with
    | zero => rfl
    | succ budget => simp [climb, hstep, hratio, room, Ending.of]
  | @moved i state next decision observed outcome hstep hratio _ ih =>
    cases budget with
    | zero => simp [climb]
    | succ budget =>
      simp only [climb, hstep, hratio, if_false, ih, room_cons, Nat.add_le_add_iff_right]
      split
      · have hend : Ending.of (i + 1) observed.length (budget - observed.length) outcome =
            .of i (observed.length + 1) (budget + 1 - (observed.length + 1)) outcome := by
          cases outcome with
          | ok final =>
            rw [Ending.of, Ending.of, Ending.converged.injEq]
            exact ⟨by omega, rfl, by omega⟩
          | error fault => rfl
        rw [hend, List.length_cons]
      · rfl

theorem climb_cases (controller : Controller) (curve : Curve) (phase : Phase)
    (budget i : Nat) (state : ControlState) :
    (∃ observed outcome, Climbs controller curve phase i state observed outcome ∧
        room observed outcome ≤ budget) ∨
      (climb controller curve phase budget i state).2 = .outOfPoints ∧
        (climb controller curve phase budget i state).1.length = budget := by
  induction budget generalizing i state with
  | zero => exact .inr ⟨rfl, rfl⟩
  | succ budget ih =>
    cases hstep : controller.iterate curve state with
    | error fault => exact .inl ⟨[], .error fault, .failed hstep, by simp [room]⟩
    | ok step =>
      obtain ⟨next, decision⟩ := step
      by_cases hratio : next.ratio = state.ratio
      · exact .inl ⟨_, _, .converged hstep hratio, by simp [room]⟩
      · rcases ih (i + 1) next with ⟨observed, outcome, hclimb, hroom⟩ | ⟨hend, hlen⟩
        · exact .inl ⟨_, outcome, .moved hstep hratio hclimb, by simpa using hroom⟩
        · simp only [climb, hstep, hratio, if_false]
          exact .inr ⟨hend, by rw [List.length_cons, hlen]⟩

/-! ## The points of a climb -/

namespace Climbs

/-- Every point is what the law makes of the state that the point before it shows. -/
theorem link (h : Climbs controller curve phase i state observed outcome)
    (start : Observation) {before here : Observation} (hstart : start.point.state = state) {k : Nat}
    (hbefore : (start :: observed)[k]? = some before) (hhere : observed[k]? = some here) :
    ∃ next decision, controller.iterate curve before.point.state = .ok (next, decision) ∧
      here = .record (i + k) phase next (some decision) := by
  -- each move makes its own point the start of the rest, so `start` goes along with the induction
  induction h generalizing start k with
  | failed => simp at hhere
  | @converged i state next decision hstep =>
    cases k with
    | zero =>
      cases hbefore
      cases hhere
      exact ⟨next, decision, by rwa [hstart], rfl⟩
    | succ k => simp at hhere
  | @moved i state next decision observed outcome hstep _ _ ih =>
    cases k with
    | zero =>
      cases hbefore
      cases hhere
      exact ⟨next, decision, by rwa [hstart], rfl⟩
    | succ k =>
      obtain ⟨next', decision', hstep', rfl⟩ := ih _ rfl hbefore hhere
      exact ⟨next', decision', hstep', by rw [Nat.add_assoc, Nat.add_comm 1]⟩

theorem get (h : Climbs controller curve phase i state observed outcome) {k : Nat}
    {here : Observation} (hhere : observed[k]? = some here) :
    ∃ next decision, here = .record (i + k) phase next (some decision) := by
  have hk : k < (Observation.record i phase state none :: observed).length :=
    Nat.lt_succ_of_lt (List.getElem?_eq_some_iff.1 hhere).1
  obtain ⟨next, decision, -, heq⟩ := h.link (.record i phase state none) rfl
    (List.getElem?_eq_getElem hk) hhere
  exact ⟨next, decision, heq⟩

theorem repeats_iff (h : Climbs controller curve phase i state observed (.ok final))
    {start before here : Observation} (hstart : start.point.ratio = state.ratio) {k : Nat}
    (hbefore : (start :: observed)[k]? = some before) (hhere : observed[k]? = some here) :
    here.point.ratio = before.point.ratio ↔ k + 1 = observed.length := by
  generalize hout : Except.ok final = outcome at h
  induction h generalizing start k with
  | failed => cases hout
  | converged hstep hratio =>
    cases k with
    | zero =>
      cases hbefore
      cases hhere
      exact iff_of_true (hratio.trans hstart.symm) rfl
    | succ k => simp at hhere
  | @moved i state next decision observed outcome hstep hratio hclimb ih =>
    cases k with
    | zero =>
      cases hbefore
      cases hhere
      have hne : observed ≠ [] := by
        rintro rfl
        cases hclimb
        cases hout
      refine iff_of_false (fun heq => hratio (heq.trans hstart)) fun hlen => hne ?_
      exact List.eq_nil_of_length_eq_zero (Nat.succ_inj.1 hlen).symm
    | succ k => exact (ih rfl hbefore hhere hout).trans Nat.succ_inj.symm

/-- A climb records points of its own phase alone. -/
theorem countP_le (h : Climbs controller curve phase i state observed outcome) (phase' : Phase) :
    observed.countP (·.controlledIn phase') ≤ if phase' = phase then observed.length else 0 := by
  split
  · exact List.countP_le_length
  · rename_i hne
    apply Nat.le_of_eq
    apply List.countP_eq_zero.2
    intro o ho
    obtain ⟨k, hk⟩ := List.mem_iff_getElem?.1 ho
    obtain ⟨next, decision, rfl⟩ := h.get hk
    simp [Observation.controlledIn, Observation.record, TracePoint.record, Ne.symm hne]

/-- A climb converges in the state of its last point. -/
theorem exists_last (h : Climbs controller curve phase i state observed (.ok final)) :
    ∃ before decision,
      observed = before ++ [.record (i + before.length) phase final (some decision)] := by
  generalize hout : Except.ok final = outcome at h
  induction h with
  | failed => cases hout
  | @converged i state next decision =>
    cases hout
    exact ⟨[], decision, rfl⟩
  | @moved i state next decision observed outcome _ _ _ ih =>
    obtain ⟨before, last, heq⟩ := ih hout
    refine ⟨.record i phase next (some decision) :: before, last, ?_⟩
    rw [heq, List.cons_append, List.length_cons, Nat.add_right_comm, Nat.add_assoc]

/-- A climb that fails does so in an iteration. -/
theorem exists_iterate {fault : ControlFault}
    (h : Climbs controller curve phase i state observed (.error fault)) :
    ∃ state, controller.iterate curve state = .error fault := by
  generalize hout : Except.error fault = outcome at h
  induction h with
  | failed hstep =>
    cases hout
    exact ⟨_, hstep⟩
  | converged => cases hout
  | moved _ _ _ ih => exact ih hout

end Climbs

end Interleave
