import Interleave.Proofs.Window.Observe

/-!
# Replayed windows

A replay observes windows one by one up to the first that fails. `results` and `after` are what all of
them give and where they lead if none of them ends the series, so a replay can be compared with them.
A window that fails leaves no trace in the controller: the windows after it give what they would give
without it, be it one or many that are put in between (`Padded`).

Results:
* `replay_of_results`, `replay_of_fault`: a replay of windows that succeed, and one that ends early.
* `replay_append`: one replay after the other.
* `Padded.results_eq`: windows that fail change nothing for the others.
* `replays_in_order`: all of these for every controller.
-/
namespace Interleave.WindowedController

/-- What windows give that are observed one by one, whether they fail or not. -/
def results (w : WindowedController) : List (List Sample) → List (Except ControlFault WindowStep)
  | [] => []
  | window :: windows => (w.observe window).1 :: (w.observe window).2.results windows

/-- The controller after windows are observed one by one. -/
def after (w : WindowedController) : List (List Sample) → WindowedController
  | [] => w
  | window :: windows => (w.observe window).2.after windows

variable {w : WindowedController} {window : List Sample} {windows before : List (List Sample)}
  {steps : List WindowStep} {fault : ControlFault}

/-! ## One window after the other -/

theorem after_append (w : WindowedController) (a b : List (List Sample)) :
    w.after (a ++ b) = (w.after a).after b := by
  induction a generalizing w with
  | nil => rfl
  | cons window a ih => exact ih (w.observe window).2

theorem after_controller (w : WindowedController) (windows : List (List Sample)) :
    (w.after windows).controller = w.controller := by
  induction windows generalizing w with
  | nil => rfl
  | cons window windows ih => exact (ih _).trans (w.observe_state window).1

theorem after_percentile (w : WindowedController) (windows : List (List Sample)) :
    (w.after windows).percentile = w.percentile := by
  induction windows generalizing w with
  | nil => rfl
  | cons window windows ih => exact (ih _).trans (w.observe_percentile window)

/-- Where windows that succeed lead: to the state of the last of their steps. -/
theorem after_state (h : w.results windows = steps.map .ok) :
    (w.after windows).state = (steps.getLast?.map (·.state)).getD w.state := by
  induction windows generalizing w steps with
  | nil =>
    obtain rfl : steps = [] := List.map_eq_nil_iff.1 h.symm
    rfl
  | cons window windows ih =>
    obtain ⟨step, steps, rfl, hfirst, hrest⟩ := List.map_eq_cons_iff.1 h.symm
    have hstate := ih hrest.symm
    rw [observe_state_of_ok hfirst.symm] at hstate
    rw [after, hstate, List.getLast?_cons]
    cases steps.getLast? <;> rfl

/-- Of windows that are observed one by one, all succeed or there is a first one that fails. -/
theorem results_cases (w : WindowedController) (windows : List (List Sample)) :
    (∃ steps : List WindowStep, w.results windows = steps.map .ok) ∨
      ∃ before window later fault, windows = before ++ window :: later ∧
        (∃ steps : List WindowStep, w.results before = steps.map .ok) ∧
        ((w.after before).observe window).1 = .error fault := by
  induction windows generalizing w with
  | nil => exact .inl ⟨[], rfl⟩
  | cons window windows ih =>
    cases hfirst : (w.observe window).1 with
    | error fault => exact .inr ⟨[], window, windows, fault, rfl, ⟨[], rfl⟩, hfirst⟩
    | ok step =>
      rcases ih (w.observe window).2 with ⟨steps, hsteps⟩ |
        ⟨before, bad, later, fault, rfl, ⟨steps, hsteps⟩, hfault⟩
      · exact .inl ⟨step :: steps, by rw [results, hfirst, hsteps]; rfl⟩
      · exact .inr ⟨window :: before, bad, later, fault, rfl,
          ⟨step :: steps, by rw [results, hfirst, hsteps]; rfl⟩, hfault⟩

/-! ## Replays -/

/-- A replay that goes on with further windows, unless it has failed. -/
def goOn (soFar : Except ControlFault (List WindowStep) × WindowedController)
    (windows : List (List Sample)) : Except ControlFault (List WindowStep) × WindowedController :=
  match soFar with
  | (.error fault, w) => (.error fault, w)
  | (.ok steps, w) => ((w.replay windows).1.map (steps ++ ·), (w.replay windows).2)

theorem replay_cons_of_ok {step : WindowStep} (h : (w.observe window).1 = .ok step)
    (windows : List (List Sample)) : w.replay (window :: windows) =
      (((w.observe window).2.replay windows).1.map (step :: ·),
        ((w.observe window).2.replay windows).2) := by
  rw [replay]
  generalize w.observe window = observed at *
  obtain ⟨result, next⟩ := observed
  cases h
  rfl

theorem replay_cons_of_error (h : (w.observe window).1 = .error fault)
    (windows : List (List Sample)) : w.replay (window :: windows) = (.error fault, w) := by
  have hsame := observe_of_fault h
  rw [replay]
  generalize w.observe window = observed at *
  obtain ⟨result, next⟩ := observed
  cases h
  cases hsame
  rfl

theorem replay_append (w : WindowedController) (a b : List (List Sample)) :
    w.replay (a ++ b) = goOn (w.replay a) b := by
  induction a generalizing w with
  | nil =>
    change w.replay b = ((w.replay b).1.map ([] ++ ·), (w.replay b).2)
    cases w.replay b with
    | mk result last => cases result <;> rfl
  | cons window a ih =>
    rw [List.cons_append]
    cases hfirst : (w.observe window).1 with
    | error fault =>
      rw [replay_cons_of_error hfirst, replay_cons_of_error hfirst]
      rfl
    | ok step =>
      rw [replay_cons_of_ok hfirst, replay_cons_of_ok hfirst, ih (w.observe window).2]
      cases (w.observe window).2.replay a with
      | mk result last =>
        cases result with
        | error fault => rfl
        | ok steps =>
          dsimp only [goOn, Except.map]
          cases (last.replay b).1 <;> rfl

theorem replay_of_results (h : w.results windows = steps.map .ok) :
    w.replay windows = (.ok steps, w.after windows) := by
  induction windows generalizing w steps with
  | nil =>
    obtain rfl : steps = [] := List.map_eq_nil_iff.1 h.symm
    rfl
  | cons window windows ih =>
    obtain ⟨step, steps, rfl, hfirst, hrest⟩ := List.map_eq_cons_iff.1 h.symm
    rw [replay_cons_of_ok hfirst.symm, ih hrest.symm]
    rfl

/-- The first window that fails ends the replay, whatever comes after it. -/
theorem replay_of_fault (hbefore : w.results before = steps.map .ok)
    (hfault : ((w.after before).observe window).1 = .error fault) (later : List (List Sample)) :
    w.replay (before ++ window :: later) = (.error fault, w.after before) := by
  rw [replay_append, replay_of_results hbefore, goOn, replay_cons_of_error hfault]
  rfl

/-! ## Windows put in between -/

/-- `w.Padded windows padded results`: windows that fail where they are observed are put in between
`windows`, which makes it `padded`; `results` are what the windows give that were there before. -/
inductive Padded : WindowedController → List (List Sample) → List (List Sample) →
    List (Except ControlFault WindowStep) → Prop
  | done {w : WindowedController} : Padded w [] [] []
  | own {w : WindowedController} {window windows padded results} :
      Padded (w.observe window).2 windows padded results →
      Padded w (window :: windows) (window :: padded) ((w.observe window).1 :: results)
  | other {w : WindowedController} {window windows padded results fault} :
      (w.observe window).1 = .error fault → Padded (w.observe window).2 windows padded results →
      Padded w windows (window :: padded) results

theorem Padded.results_eq {padded : List (List Sample)} {found : List (Except ControlFault WindowStep)}
    (h : w.Padded windows padded found) :
    found = w.results windows ∧ w.after padded = w.after windows := by
  induction h with
  | done => exact ⟨rfl, rfl⟩
  | own _ ih => exact ⟨congrArg _ ih.1, ih.2⟩
  | other hfault _ ih =>
    rw [observe_of_fault hfault] at ih
    exact ⟨ih.1, by rw [after, observe_of_fault hfault, ih.2]⟩

/-! ## All of it -/

/-- A replay is its windows observed in order, and a window that fails changes nothing. -/
structure ReplaysInOrder (w : WindowedController) : Prop where
  /-- Windows that all succeed give their steps and lead to the state of the last one. -/
  succeeds : ∀ windows (steps : List WindowStep), w.results windows = steps.map .ok →
    w.replay windows = (.ok steps, w.after windows) ∧
      (w.after windows).state = (steps.getLast?.map (·.state)).getD w.state
  /-- The first window that fails ends the replay where the windows before it have led. -/
  fails : ∀ before window later (steps : List WindowStep) fault, w.results before = steps.map .ok →
    ((w.after before).observe window).1 = .error fault →
      w.replay (before ++ window :: later) = (.error fault, w.after before)
  /-- There is no third case. -/
  ends : ∀ windows, (∃ steps : List WindowStep, w.results windows = steps.map .ok) ∨
    ∃ before window later fault, windows = before ++ window :: later ∧
      (∃ steps : List WindowStep, w.results before = steps.map .ok) ∧
      ((w.after before).observe window).1 = .error fault
  append : ∀ a b, w.replay (a ++ b) = goOn (w.replay a) b
  /-- A window fails for want of samples, or because the law refuses what it reads. -/
  refuses : ∀ window fault, (w.observe window).1 = .error fault ↔ w.Refuses window fault
  untouched : ∀ window fault, (w.observe window).1 = .error fault → (w.observe window).2 = w
  /-- Windows that fail change neither what the others give nor where they lead. -/
  padded : ∀ windows padded results, w.Padded windows padded results →
    results = w.results windows ∧ w.after padded = w.after windows

theorem replays_in_order (w : WindowedController) : w.ReplaysInOrder where
  succeeds _ _ h := ⟨replay_of_results h, after_state h⟩
  fails _ _ later _ _ hbefore hfault := replay_of_fault hbefore hfault later
  ends := w.results_cases
  append := w.replay_append
  refuses _ _ := observe_eq_error_iff
  untouched _ _ := observe_of_fault
  padded _ _ _ h := h.results_eq

/-- A window of one sample. -/
def single (total : Float) : List Sample := [⟨.nan, .nan, .ofFloat total⟩]

/-- The default configuration, before it has seen any bandwidth. -/
def fresh : WindowedController :=
  ⟨⟨{}, ControllerConfig.valid_default⟩, 50, ⟨100, 0, 1.0⟩, by decide, by decide⟩

/-- The window without samples ends the replay, and the one after it is not observed. -/
theorem replays_in_order_fresh :
    fresh.replay [single 512.0, [], single 600.0] = (.error .emptySampleSet, fresh.after [single 512.0]) ∧
      (fresh.after [single 512.0]).state = ⟨92, -8, 512.0⟩ := by
  obtain ⟨step, hstep⟩ : ∃ step, fresh.results [single 512.0] = [.ok step] :=
    ⟨⟨⟨⟨.nan, .nan, .ofFloat 512.0⟩, 0, 1⟩, ⟨92, -8, 512.0⟩, ⟨.coldStart, -51100, false, true, false⟩⟩,
      by decide +kernel⟩
  have hempty := ((replays_in_order (fresh.after [single 512.0])).refuses [] _).2 (.empty rfl)
  exact ⟨(replays_in_order fresh).fails [single 512.0] [] [single 600.0] [step] _ hstep hempty,
    by decide +kernel⟩

end Interleave.WindowedController
