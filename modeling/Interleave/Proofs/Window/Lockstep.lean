import Interleave.Proofs.Simulation.Links
import Interleave.Proofs.Window.Observe

/-!
# Windows in step with a curve

A controller that is fed by windows and a simulated run share the control law and nothing else. Where
the later half of every window shows what a curve has at the ratio of the controller (`Shows`), the two
go in step: the windows lead to the states and decisions of the run on that curve, and to its fault.
How long the windows are, what their first halves hold and which percentile is asked for does not
matter.

Results:
* `readWindow_of_steady`: a window whose later half shows one total reads as that total.
* `replay_in_step`: windows against a climb within any budget.
* `windows_follow_run`: windows against the first phase of a run.
-/
namespace Interleave

/-! ## Steady windows -/

/-- The last half of the samples, rounded up, show one total. -/
def Steady (window : List Sample) (total : Float) : Prop :=
  window ≠ [] ∧ ∀ s ∈ window.rtake ((window.length + 1) / 2), s.total.toFloat = total

theorem readWindow_of_steady {window : List Sample} {total : Float} {percentile : Int}
    (h : Steady window total) (hp : percentiles percentile) :
    ∃ reading, readWindow window percentile = .ok reading ∧
      reading.sample.total.toFloat = total := by
  obtain ⟨hne, htotal⟩ := h
  rw [← settled_eq_rtake] at htotal
  obtain ⟨reading, hread, hsample⟩ := exists_readWindow hne hp
  exact ⟨reading, hread, htotal reading.sample hsample⟩

/-! ## In step with a climb -/

namespace WindowedController

/-- Every window shows what the curve has at the ratio where the windows before have led. -/
def Shows (curve : Curve) (w : WindowedController) : List (List Sample) → Prop
  | [] => True
  | window :: windows => (∃ total, curve.get w.state.ratio = .ok total ∧ Steady window total) ∧
    Shows curve (w.observe window).2 windows

/-- A window that shows the curve does what an iteration on the curve does. -/
theorem observe_of_steady {curve : Curve} {w : WindowedController} {window : List Sample}
    {total : Float} (hget : curve.get w.state.ratio = .ok total) (hsteady : Steady window total) :
    match w.controller.iterate curve w.state with
    | .ok (next, decision) => ∃ reading w', w.observe window = (.ok ⟨reading, next, decision⟩, w') ∧
        w'.state = next ∧ w'.controller = w.controller
    | .error fault => w.observe window = (.error fault, w) := by
  obtain ⟨reading, hread, rfl⟩ := readWindow_of_steady hsteady w.percentile_mem
  have hiterate : w.controller.iterate curve w.state =
      w.controller.advance w.state reading.sample.total.toFloat := by
    rw [Controller.iterate, hget]
    rfl
  rw [hiterate]
  cases hstep : w.controller.advance w.state reading.sample.total.toFloat with
  | error fault => exact observe_of_error hread hstep
  | ok step =>
    obtain ⟨next, decision⟩ := step
    exact ⟨reading, _, observe_of_ok hread hstep, rfl, rfl⟩

/-- Windows that show a curve lead through the points of a climb, one by one, and to its fault. -/
theorem replay_in_step {curve : Curve} {w : WindowedController} {windows : List (List Sample)}
    (hshows : w.Shows curve windows) (phase : Phase) (budget i : Nat) :
    (windows.length ≤ (climb w.controller curve phase budget i w.state).1.length →
      ∃ steps, (w.replay windows).1 = .ok steps ∧
        steps.map (fun s => (s.state, some s.decision)) =
          ((climb w.controller curve phase budget i w.state).1.take windows.length).map
            fun o => (o.point.state, o.decision)) ∧
    ∀ fault, (climb w.controller curve phase budget i w.state).2 = .failed fault →
      (climb w.controller curve phase budget i w.state).1.length < windows.length →
        (w.replay windows).1 = .error fault := by
  induction windows generalizing w budget i with
  | nil => exact ⟨fun _ => ⟨[], rfl, rfl⟩, fun _ _ h => absurd h (Nat.not_lt_zero _)⟩
  | cons window windows ih =>
    obtain ⟨⟨total, hget, hsteady⟩, hlater⟩ := hshows
    have hobserve := observe_of_steady hget hsteady
    cases budget with
    | zero =>
      refine ⟨fun h => absurd h (Nat.not_succ_le_zero _), ?_⟩
      intro fault h
      cases h
    | succ budget =>
      unfold climb
      cases hstep : w.controller.iterate curve w.state with
      | error fault =>
        rw [hstep] at hobserve
        refine ⟨fun h => absurd h (Nat.not_succ_le_zero _), ?_⟩
        rintro fault' hfault -
        cases hfault
        rw [replay, hobserve]
      | ok step =>
        obtain ⟨next, decision⟩ := step
        rw [hstep] at hobserve
        obtain ⟨reading, w', hok, rfl, hcontroller⟩ := hobserve
        rw [hok] at hlater
        obtain ⟨hsteps, hfaults⟩ := ih hlater budget (i + 1)
        rw [hcontroller] at hsteps hfaults
        have hreplay : (w.replay (window :: windows)).1 =
            (w'.replay windows).1.map (⟨reading, w'.state, decision⟩ :: ·) := by
          rw [replay, hok]
        dsimp only
        split
        · -- the climb ends here, so at most one window is in step with it
          constructor
          · intro hlen
            obtain rfl : windows = [] := List.eq_nil_of_length_eq_zero (by simpa using hlen)
            exact ⟨[⟨reading, w'.state, decision⟩], by rw [hreplay]; rfl, rfl⟩
          · intro fault h
            cases h
        · rw [hreplay]
          refine ⟨?_, ?_⟩
          · intro hlen
            obtain ⟨steps, hsteps, hsame⟩ := hsteps (Nat.le_of_succ_le_succ hlen)
            refine ⟨_, by rw [hsteps]; rfl, ?_⟩
            rw [List.map_cons, hsame]
            rfl
          · intro fault hfault hlen
            rw [hfaults fault hfault (Nat.lt_of_succ_lt_succ hlen)]
            rfl

end WindowedController

/-! ## In step with a run -/

namespace Simulator

variable {s : Simulator}

/-- The controller that starts where the run does. -/
theorem exists_start (s : Simulator) {percentile : Int} (hp : percentiles percentile) :
    ∃ w, WindowedController.start s.controller.config percentile s.initial = .ok w ∧
      w.controller = s.controller ∧ w.state = s.initial := by
  refine ⟨⟨s.controller, percentile, s.initial, hp, s.valid.bounds.1⟩, ?_, rfl, rfl⟩
  have hvalid : s.controller.config.fault? = none := s.controller.valid
  have hconfig : Controller.ofConfig s.controller.config = .ok s.controller := by
    unfold Controller.ofConfig
    split
    · rename_i hfault
      rw [hvalid] at hfault
      cases hfault
    · rfl
  have hratio : s.initial.ratio ≤ maxRatio := s.valid.bounds.1
  rw [WindowedController.start, dif_pos hp, dif_pos hratio, hconfig]
  rfl

/-- The points of the first phase that follow from a decision are those of the first climb. -/
theorem filter_primary (s : Simulator) :
    s.run.observed.filter (·.controlledIn .primary) = s.firstClimb.1 := by
  have hclimbed : (s.first :: s.firstClimb.1).filter (·.controlledIn .primary) = s.firstClimb.1 := by
    rw [List.filter_cons_of_neg (by simp [Observation.controlledIn, first, Observation.record]),
      List.filter_eq_self]
    intro o ho
    obtain ⟨j, next, decision, rfl⟩ := mem_climb ho
    rfl
  have hheld (state : ControlState) (iteration count : Nat) :
      (holdPoints .primary state iteration count).filter (·.controlledIn .primary) = [] := by
    rw [List.filter_eq_nil_iff]
    intro o ho
    obtain ⟨j, -, rfl⟩ := List.mem_map.1 ho
    simp [Observation.controlledIn, Observation.record]
  rcases s.observed_cases with hrun | ⟨curve, primaryAt, state, left, -, -, hcut | hrun⟩
  · rw [hrun, hclimbed]
  · rw [hcut.2, beforeSwitch, List.take_append, List.take_of_length_le (by simp),
      holdPoints_take _ _ _ (by simp; omega), List.filter_append, hclimbed, hheld, List.append_nil]
  · have hsecond : (s.secondClimb curve state left).1.filter (·.controlledIn .primary) = [] := by
      rw [List.filter_eq_nil_iff]
      intro o ho
      obtain ⟨j, next, decision, rfl⟩ := mem_climb ho
      simp [Observation.controlledIn, Observation.record, TracePoint.record]
    rw [hrun.2, beforeSwitch, List.filter_append, List.filter_append, hclimbed, hheld, hsecond,
      List.append_nil, List.append_nil]

/-- A run whose first climb neither converges nor fails is stopped by the cap. -/
theorem timesOut_of_outOfPoints (h : s.firstClimb.2 = .outOfPoints) :
    s.run.TimesOut s.config.maxIterations := by
  rcases climb_cases s.controller s.primary .primary (s.config.maxIterations - 1) 1 s.initial with
    ⟨observed, outcome, hclimb, hroom⟩ | ⟨hend, hlen⟩
  · rw [firstClimb, hclimb.climb_eq, if_pos hroom] at h
    cases outcome <;> cases h
  · exact timesOut_of_first hend hlen

end Simulator

/-- Windows whose later halves show what the first curve of a run has at the ratio of the controller
lead through the points of the first phase of the run, up to the convergence. Where the windows go on
beyond these points, and the run has not converged, it ends in the fault that the controller ends in,
unless its cap has stopped it. -/
theorem windows_follow_run (s : Simulator) {percentile : Int} (hp : percentiles percentile) :
    ∃ w, WindowedController.start s.controller.config percentile s.initial = .ok w ∧
      ∀ windows : List (List Sample), w.Shows s.primary windows →
        (windows.length ≤ (s.run.observed.filter (·.controlledIn .primary)).length →
          ∃ steps, (w.replay windows).1 = .ok steps ∧
            steps.map (fun step => (step.state, some step.decision)) =
              ((s.run.observed.filter (·.controlledIn .primary)).take windows.length).map
                fun o => (o.point.state, o.decision)) ∧
        ((s.run.observed.filter (·.controlledIn .primary)).length < windows.length →
          s.convergences = [] →
          (∃ fault, s.run.result = .error fault ∧ (w.replay windows).1 = .error fault) ∨
            s.run.TimesOut s.config.maxIterations) := by
  obtain ⟨w, hstart, hcontroller, hstate⟩ := s.exists_start hp
  refine ⟨w, hstart, ?_⟩
  intro windows hshows
  obtain ⟨hsteps, hfaults⟩ := WindowedController.replay_in_step hshows .primary
    (s.config.maxIterations - 1) 1
  rw [hcontroller, hstate] at hsteps hfaults
  rw [s.filter_primary]
  refine ⟨hsteps, ?_⟩
  intro hlen hnone
  cases hend : s.firstClimb.2 with
  | converged primaryAt state left =>
    rw [Simulator.convergences, hend] at hnone
    cases hnone
  | outOfPoints => exact .inr (Simulator.timesOut_of_outOfPoints hend)
  | failed fault =>
    refine .inl ⟨fault, ?_, hfaults fault hend hlen⟩
    rw [Simulator.run_eq, hend]

/-- A curve without any bandwidth where the run starts. The law divides by it in the second
iteration. -/
def Simulator.dark : Simulator where
  controller := ⟨{ lowBandwidthThreshold := 0.0 }, by decide⟩
  config := { initialRatio := 50, initialBandwidth := 100.0 }
  valid := by decide
  primary :=
    ⟨[⟨50, 0.0⟩, ⟨100, 50.0⟩], by decide, by simp [CurvePoint.Ascending], by decide, by decide⟩
  secondary := none

/-- The first windows of `dark`. -/
def darkWindows : List (List Sample) :=
  [[⟨.nan, .nan, .nan⟩, ⟨.nan, .nan, .ofFloat 0.0⟩], [⟨.nan, .nan, .ofFloat 8.0⟩]]

/-- One window leads to the first point of the run, and with two of them the law fails as it does in
the run. -/
theorem windows_follow_run_dark :
    ∃ w, WindowedController.start Simulator.dark.controller.config 80 Simulator.dark.initial = .ok w ∧
      (∃ steps, (w.replay (darkWindows.take 1)).1 = .ok steps ∧
        steps.map (fun step => (step.state, some step.decision)) =
          [(⟨58, 8, 0.0⟩, some ⟨.coldStart, 50, false, true, false⟩)]) ∧
      (w.replay darkWindows).1 = .error (.divisionByZero .damping) := by
  obtain ⟨w, hstart, hfollow⟩ := windows_follow_run Simulator.dark (show percentiles 80 by decide)
  have hw : w = ⟨Simulator.dark.controller, 80, Simulator.dark.initial, by decide, by decide⟩ :=
    Except.ok.inj (hstart.symm.trans rfl)
  have hfirst : (∃ total, Simulator.dark.primary.get w.state.ratio = .ok total ∧
      Steady [⟨.nan, .nan, .nan⟩, ⟨.nan, .nan, .ofFloat 0.0⟩] total) := by
    rw [hw]
    exact ⟨0.0, by decide +kernel, by decide, by decide +kernel⟩
  refine ⟨w, hstart, ?_, ?_⟩
  · obtain ⟨steps, hreplay, hsteps⟩ := (hfollow (darkWindows.take 1) ⟨hfirst, trivial⟩).1
      (by decide +kernel)
    exact ⟨steps, hreplay, hsteps.trans (by decide +kernel)⟩
  · have hsecond : ∃ total, Simulator.dark.primary.get (w.observe [⟨.nan, .nan, .nan⟩,
        ⟨.nan, .nan, .ofFloat 0.0⟩]).2.state.ratio = .ok total ∧
        Steady [⟨.nan, .nan, .ofFloat 8.0⟩] total := by
      rw [hw]
      exact ⟨8.0, by decide +kernel, by decide, by decide +kernel⟩
    have hfault : Simulator.dark.run.result = .error (.divisionByZero .damping) := by
      decide +kernel
    rcases (hfollow darkWindows ⟨hfirst, hsecond, trivial⟩).2 (by decide +kernel)
      (by decide +kernel) with ⟨fault, hrun, hreplay⟩ | hout
    · rw [hfault] at hrun
      cases hrun
      exact hreplay
    · rw [Run.TimesOut, hfault] at hout
      cases hout.1

end Interleave
