import Interleave.Window
import Interleave.Proofs.Controller.Steps
import Interleave.Proofs.Window.Rank
import Mathlib.Data.List.DropRight

/-!
# What one window does

A window that can be read gives the law one observation. What the law makes of it is the next state;
where the window or the law fails, the controller stays as it is, and the fault is reported.

Results:
* `exists_readWindow`, `readWindow_nil`: a window can be read if it has any samples.
* `observe_of_ok`, `observe_of_error`: a window that can be read does what the law does.
* `observe_unread`: a window that cannot be read changes nothing.
* `observe_cases`: all that a window can do.
* `observe_state`: the next state of a controller is one that the law gives, or the same again.
* `observe_eq_error_iff`, `observe_of_fault`: when a window fails, and that it leaves no trace.
-/
namespace Interleave

/-! ## Reading a window -/

/-- The later half of a window, rounded up. -/
theorem settled_eq_rtake (window : List Sample) :
    settled window = window.rtake ((window.length + 1) / 2) := by
  rw [settled, List.rtake]
  congr 1
  omega

/-- A window with samples stands for one of those in its later half. -/
theorem exists_readWindow {window : List Sample} {percentile : Int} (hne : window ≠ [])
    (hp : percentiles percentile) :
    ∃ reading, readWindow window percentile = .ok reading ∧ reading.sample ∈ settled window := by
  have hsettled : settled window ≠ [] := by
    have hpos := List.length_pos_of_ne_nil hne
    rw [settled, Ne, List.drop_eq_nil_iff]
    omega
  obtain ⟨sample, hselect, hfirst, -⟩ := exists_selectPercentile hsettled hp
  refine ⟨⟨sample, window.length / 2, (settled window).length⟩, ?_, hfirst.mem⟩
  rw [readWindow, hselect]
  rfl

theorem readWindow_nil {percentile : Int} (hp : percentiles percentile) :
    readWindow [] percentile = .error .emptySampleSet := by
  have hselect : selectPercentile [] percentile = .error .emptySampleSet := by
    rw [selectPercentile, if_pos hp, rankedKeys, List.map_nil, List.mergeSort_nil]
    rfl
  rw [readWindow, settled, List.drop_nil, hselect]
  rfl

/-! ## Observing a window -/

namespace WindowedController

variable {w : WindowedController} {window : List Sample} {reading : Reading} {next : ControlState}
  {d : Decision} {fault : ControlFault}

theorem observe_unread (h : readWindow window w.percentile = .error fault) :
    w.observe window = (.error fault, w) := by
  simp [observe, step, h, bind, Except.bind]

section
variable (hread : readWindow window w.percentile = .ok reading)
include hread

theorem observe_of_ok
    (h : w.controller.advance w.state reading.sample.total.toFloat = .ok (next, d)) :
    w.observe window = (.ok ⟨reading, next, d⟩,
      { w with state := next, ratio_le := ControllerConfig.advance_ratio_le h }) := by
  have hstep : w.step window = .ok (⟨reading, next, d⟩,
      { w with state := next, ratio_le := ControllerConfig.advance_ratio_le h }) := by
    simp only [step, hread, bind, Except.bind]
    split
    · rename_i hfault
      rw [h] at hfault
      cases hfault
    · rename_i hok
      rw [h] at hok
      cases hok
      rfl
  rw [observe, hstep]

theorem observe_of_error
    (h : w.controller.advance w.state reading.sample.total.toFloat = .error fault) :
    w.observe window = (.error fault, w) := by
  have hstep : w.step window = .error fault := by
    simp only [step, hread, bind, Except.bind]
    split
    · rename_i hfault
      rw [h] at hfault
      cases hfault
      rfl
    · rename_i hok
      rw [h] at hok
      cases hok
  rw [observe, hstep]

end

theorem start_eq {config : ControllerConfig} {percentile : Int} {initial : ControlState}
    {w : WindowedController} (h : start config percentile initial = .ok w) :
    w.controller.config = config ∧ w.state = initial := by
  unfold start Controller.ofConfig at h
  split at h
  · split at h
    · split at h
      · cases h
      · cases h
        exact ⟨rfl, rfl⟩
    · cases h
  · cases h

/-! ## All windows -/

/-- Why a window fails: it has no samples, or the law refuses the total that stands for it. -/
inductive Refuses (w : WindowedController) (window : List Sample) : ControlFault → Prop
  | empty : window = [] → Refuses w window .emptySampleSet
  | law {reading : Reading} {fault : ControlFault} : readWindow window w.percentile = .ok reading →
      w.controller.config.Refuses w.state reading.sample.total.toFloat fault → Refuses w window fault

/-- A window is refused and changes nothing, or it can be read and does what the law does. -/
theorem observe_cases (w : WindowedController) (window : List Sample) :
    (∃ fault, w.Refuses window fault ∧ w.observe window = (.error fault, w)) ∨
    ∃ reading next d,
      ∃ h : w.controller.advance w.state reading.sample.total.toFloat = .ok (next, d),
        readWindow window w.percentile = .ok reading ∧ w.observe window = (.ok ⟨reading, next, d⟩,
          { w with state := next, ratio_le := ControllerConfig.advance_ratio_le h }) := by
  rcases eq_or_ne window [] with rfl | hne
  · exact .inl ⟨_, .empty rfl, observe_unread (readWindow_nil w.percentile_mem)⟩
  · obtain ⟨reading, hread, -⟩ := exists_readWindow hne w.percentile_mem
    cases hstep : w.controller.advance w.state reading.sample.total.toFloat with
    | error fault =>
      exact .inl ⟨fault, .law hread (ControllerConfig.advance_eq_error_iff.1 hstep),
        observe_of_error hread hstep⟩
    | ok step => exact .inr ⟨reading, step.1, step.2, hstep, hread, observe_of_ok hread hstep⟩

/-- The controller keeps its configuration, and its state is the one before or what the law makes of
it. -/
theorem observe_state (w : WindowedController) (window : List Sample) :
    (w.observe window).2.controller = w.controller ∧
      ((w.observe window).2.state = w.state ∨ ∃ observed d,
        w.controller.advance w.state observed = .ok ((w.observe window).2.state, d)) := by
  rcases w.observe_cases window with ⟨fault, -, hsame⟩ | ⟨reading, next, d, hadvance, -, hnext⟩
  · rw [hsame]
    exact ⟨rfl, .inl rfl⟩
  · rw [hnext]
    exact ⟨rfl, .inr ⟨_, d, hadvance⟩⟩

theorem observe_percentile (w : WindowedController) (window : List Sample) :
    (w.observe window).2.percentile = w.percentile := by
  rcases w.observe_cases window with ⟨fault, -, hsame⟩ | ⟨reading, next, d, hadvance, -, hnext⟩
  · rw [hsame]
  · rw [hnext]

/-- The state after a window that succeeds is the one in its step. -/
theorem observe_state_of_ok {step : WindowStep} (h : (w.observe window).1 = .ok step) :
    (w.observe window).2.state = step.state := by
  rcases w.observe_cases window with ⟨fault, -, hsame⟩ | ⟨reading, next, d, hadvance, -, hnext⟩
  · rw [hsame] at h
    cases h
  · rw [hnext] at h ⊢
    cases h
    rfl

/-! ## Windows that fail -/

theorem observe_eq_error_iff : (w.observe window).1 = .error fault ↔ w.Refuses window fault := by
  constructor
  · intro h
    rcases w.observe_cases window with ⟨fault', hrefuses, hsame⟩ | ⟨_, _, _, _, -, hnext⟩
    · rw [hsame] at h
      cases h
      exact hrefuses
    · rw [hnext] at h
      cases h
  · intro h
    cases h with
    | empty hnil => rw [hnil, observe_unread (readWindow_nil w.percentile_mem)]
    | law hread hrefuses =>
      rw [observe_of_error hread (ControllerConfig.advance_eq_error_iff.2 hrefuses)]

/-- A window that fails leaves the controller as it was. -/
theorem observe_of_fault (h : (w.observe window).1 = .error fault) : (w.observe window).2 = w := by
  unfold observe at h ⊢
  split at h
  · cases h
  · rfl

end WindowedController

end Interleave
