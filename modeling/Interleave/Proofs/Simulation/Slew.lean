import Interleave.Proofs.Controller.Band
import Interleave.Proofs.Simulation.Convergence
import Interleave.Proofs.Simulation.Links
import Interleave.Proofs.Window.Observe

/-!
# Bounds and slew rate

The ratio stays within its range, and a configuration says how fast it may move: by no more than the
step limit, and by no less than the dead zone unless the move ends at 0 or 100 (`Slews`). Both hold
between any two neighbouring states, of a simulated run wherever it ends and of a controller that is
fed by windows, whatever the bandwidths are and whatever 32-bit step the controller starts with. Only
the most negative step can pass the step limit, and then the limit is larger than any move.

Results:
* `slews_of_advance`: one step of the law.
* `slew_bounded`: all runs, and all sequences of windows.
-/
namespace Interleave

namespace ControllerConfig

/-- A move of the ratio that the configuration allows. -/
structure Slews (c : ControllerConfig) (before after : Nat) : Prop where
  least : after = before ∨ c.minStep ≤ ((after : Int) - before).natAbs ∨ after = 0 ∨ after = maxRatio
  most : ((after : Int) - before).natAbs ≤ c.maxStep

variable {c : ControllerConfig} {prev next : ControlState} {observed : Float} {d : Decision}

theorem slews_rfl (hc : c.Valid) (ratio : Nat) : c.Slews ratio ratio where
  least := .inl rfl
  most := by
    have := hc.le.2.1
    omega

/-- A step passes the step limit only if no step of the word is larger than the limit. -/
theorem limit_step_le (hc : c.Valid) {proposed : Int} (hp : Step.InWord proposed) :
    (c.limit proposed).step.natAbs ≤ c.maxStep ∨ Step.maxValue ≤ c.maxStep := by
  have hmax := hc.le.2.1
  by_cases hpasses : c.maxStep = Step.maxValue ∧ proposed = Step.minValue
  · exact .inr hpasses.1.ge
  · left
    rcases (limit_in_band_iff hc hp).2 hpasses with h0 | ⟨-, hle⟩
    · rw [h0]
      omega
    · exact hle

/-- One step of the law moves the ratio as the configuration allows, and leaves a step of the word. -/
theorem slews_of_advance (hc : c.Valid) (hword : Step.InWord prev.step)
    (hratio : prev.ratio ≤ maxRatio) (h : c.advance prev observed = .ok (next, d)) :
    c.Slews prev.ratio next.ratio ∧ Step.InWord next.step := by
  obtain ⟨hproposes, rfl⟩ := advance_cases h
  have hp := hproposes.inWord hword
  have hmost := limit_step_le hc hp
  refine ⟨⟨?_, ?_⟩, inWord_limit hc hp⟩
  · rcases c.limit_cases hc hp with h0 | hkept
    · left
      rw [h0, moveRatio_up le_rfl]
      exact min_eq_left hratio
    · have hout := hkept.outside
      simp only [moveRatio]
      unfold maxRatio at *
      omega
  · simp only [moveRatio]
    unfold maxRatio Step.maxValue at *
    omega

end ControllerConfig

/-! ## Simulated runs -/

namespace Simulator

variable {s : Simulator} {before here : Observation} {k : Nat}

/-- Links keep the ratio in its range and the step in its word, and move the ratio as allowed. -/
theorem Link.slews (h : s.Link k before here) (hratio : before.point.ratio ≤ maxRatio)
    (hword : Step.InWord before.point.step) :
    s.controller.config.Slews before.point.ratio here.point.ratio ∧
      here.point.ratio ≤ maxRatio ∧ Step.InWord here.point.step := by
  cases h with
  | @stepped phase curve state next decision _ _ hstate hstep _ =>
    obtain ⟨-, hadvance⟩ := Controller.iterate_ok hstep
    have hsame : state.ratio = before.point.ratio ∧ Step.InWord state.step := by
      rw [hstate]
      split
      · exact ⟨rfl, hword⟩
      · exact ⟨rfl, ControllerConfig.inWord_zero⟩
    obtain ⟨hslews, hword'⟩ := ControllerConfig.slews_of_advance s.controller.valid hsame.2
      (hsame.1 ▸ hratio) hadvance
    rw [hsame.1] at hslews
    exact ⟨hslews, ControllerConfig.advance_ratio_le hadvance, hword'⟩
  | held =>
    exact ⟨ControllerConfig.slews_rfl s.controller.valid _, hratio, ControllerConfig.inWord_zero⟩

theorem run_bounds (hhere : s.run.observed[k]? = some here) :
    here.point.ratio ≤ maxRatio ∧ Step.InWord here.point.step := by
  apply s.run_induction (P := fun _ o => o.point.ratio ≤ maxRatio ∧ Step.InWord o.point.step)
    ⟨s.valid.bounds.1, ControllerConfig.inWord_zero⟩ ?_ hhere
  intro k before here ⟨hratio, hword⟩ hlink
  exact (hlink.slews hratio hword).2

theorem run_slews (hbefore : s.run.observed[k]? = some before)
    (hhere : s.run.observed[k + 1]? = some here) :
    s.controller.config.Slews before.point.ratio here.point.ratio := by
  obtain ⟨hratio, hword⟩ := run_bounds hbefore
  exact ((run_link hbefore hhere).slews hratio hword).1

end Simulator

/-! ## Controllers fed by windows -/

namespace WindowedController

/-- The states of a controller that observes windows, the one that it starts in first. A window that
fails leaves the state as it is. -/
def states (w : WindowedController) : List (List Sample) → List ControlState
  | [] => [w.state]
  | window :: windows => w.state :: (w.observe window).2.states windows

/-- The first state is the one at hand. -/
theorem states_head (w : WindowedController) (windows : List (List Sample)) :
    ∃ later, w.states windows = w.state :: later := by
  cases windows with
  | nil => exact ⟨[], rfl⟩
  | cons window windows => exact ⟨_, rfl⟩

theorem ratio_le_of_mem_states {w : WindowedController} {windows : List (List Sample)}
    {state : ControlState} (h : state ∈ w.states windows) : state.ratio ≤ maxRatio := by
  induction windows generalizing w with
  | nil =>
    rw [List.mem_singleton.1 h]
    exact w.ratio_le
  | cons window windows ih =>
    rcases List.mem_cons.1 h with rfl | h
    · exact w.ratio_le
    · exact ih h

/-- Neighbouring states are as far apart as allowed, from a step of the word on. -/
theorem isChain_states (w : WindowedController) (hword : Step.InWord w.state.step)
    (windows : List (List Sample)) :
    (w.states windows).IsChain fun a b => w.controller.config.Slews a.ratio b.ratio := by
  induction windows generalizing w with
  | nil => exact List.isChain_singleton _
  | cons window windows ih =>
    obtain ⟨hcontroller, hstate⟩ := w.observe_state window
    have hmove : w.controller.config.Slews w.state.ratio (w.observe window).2.state.ratio ∧
        Step.InWord (w.observe window).2.state.step := by
      rcases hstate with hsame | ⟨observed, d, hadvance⟩
      · rw [hsame]
        exact ⟨ControllerConfig.slews_rfl w.controller.valid _, hword⟩
      · exact ControllerConfig.slews_of_advance w.controller.valid hword w.ratio_le hadvance
    have hrest := ih (w.observe window).2 hmove.2
    obtain ⟨later, hlater⟩ := (w.observe window).2.states_head windows
    rw [states, hlater, List.isChain_cons_cons]
    rw [hlater, hcontroller] at hrest
    exact ⟨hmove.1, hrest⟩

end WindowedController

/-- Every ratio lies within its range, and neighbouring ratios are as far apart as the configuration
allows: in every simulated run, however it ends, and through every sequence of windows from every
state that a controller can start in. -/
theorem slew_bounded :
    (∀ s : Simulator, (∀ o ∈ s.run.observed, o.point.ratio ≤ maxRatio) ∧
      s.run.observed.IsChain fun a b => s.controller.config.Slews a.point.ratio b.point.ratio) ∧
    ∀ (config : ControllerConfig) (percentile : Int) (initial : ControlState)
      (w : WindowedController), WindowedController.start config percentile initial = .ok w →
      Step.InWord initial.step → ∀ windows : List (List Sample),
        (∀ state ∈ w.states windows, state.ratio ≤ maxRatio) ∧
        (w.states windows).IsChain fun a b => config.Slews a.ratio b.ratio := by
  constructor
  · intro s
    constructor
    · intro o ho
      obtain ⟨k, hk⟩ := List.mem_iff_getElem?.1 ho
      exact (s.run_bounds hk).1
    · apply List.isChain_iff_getElem.2
      intro k hk
      exact s.run_slews (List.getElem?_eq_getElem _) (List.getElem?_eq_getElem hk)
  · intro config percentile initial w hstart hword windows
    obtain ⟨rfl, rfl⟩ := WindowedController.start_eq hstart
    exact ⟨fun state => WindowedController.ratio_le_of_mem_states, w.isChain_states hword windows⟩

/-- The largest limits, and a start with the most negative step, which an enormous improvement keeps. -/
def WindowedController.extreme : WindowedController where
  controller := ⟨{ minStep := 3, maxStep := Step.maxValue }, by decide⟩
  percentile := 80
  state := ⟨60, Step.minValue, 1e-300⟩
  percentile_mem := by decide
  ratio_le := by decide

/-- The ratio falls from 60 to 0 at once: by less than the step, which no move can make in full. -/
theorem slew_bounded_extreme :
    WindowedController.extreme.states [[⟨.nan, .nan, .ofFloat 500.0⟩]] =
        [⟨60, Step.minValue, 1e-300⟩, ⟨0, Step.minValue, 500.0⟩] ∧
      WindowedController.extreme.controller.config.Slews 60 0 := by
  have hstates : WindowedController.extreme.states [[⟨.nan, .nan, .ofFloat 500.0⟩]] =
      [⟨60, Step.minValue, 1e-300⟩, ⟨0, Step.minValue, 500.0⟩] := by decide +kernel
  obtain ⟨-, hchain⟩ := slew_bounded.2 WindowedController.extreme.controller.config 80
    WindowedController.extreme.state WindowedController.extreme rfl (by decide)
    [[⟨.nan, .nan, .ofFloat 500.0⟩]]
  rw [hstates, List.isChain_cons_cons] at hchain
  exact ⟨hstates, hchain.1⟩

end Interleave
