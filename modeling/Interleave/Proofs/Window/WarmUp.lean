import Interleave.Proofs.Window.Replay

/-!
# The first half of a window

While a window starts, pages placed under the previous ratio are still moving, so its first half counts
only towards its length. Two windows of one length with the same later half (`SettlesAs`) are the same to
a controller, even if one of them starts with NaNs or with totals that would have led elsewhere.

Results:
* `accounts_of_readWindow`: a reading accounts for every sample, and stands for one of the later half.
* `readWindow_of_settlesAs`, `observe_of_settlesAs`: the first half does not show in what a window does.
* `first_half_ignored`: one window, in every state and for every percentile.
-/
namespace Interleave

variable {window other : List Sample} {reading : Reading} {percentile : Int}

/-- Two windows of one length that agree on the last half of their samples, rounded up. -/
structure SettlesAs (window other : List Sample) : Prop where
  length_eq : window.length = other.length
  later_eq : window.rtake ((window.length + 1) / 2) = other.rtake ((window.length + 1) / 2)

/-- Every sample of a window was dropped or considered, and the one taken is of the last half. -/
structure Reading.Accounts (reading : Reading) (window : List Sample) : Prop where
  count_eq : reading.discarded + reading.considered = window.length
  considered_pos : 1 ≤ reading.considered
  considered_eq : reading.considered = (window.length + 1) / 2
  sample_mem : reading.sample ∈ window.rtake ((window.length + 1) / 2)

/-! ## Readings -/

theorem mem_of_selectPercentile {samples : List Sample} {sample : Sample}
    (h : selectPercentile samples percentile = .ok sample) : sample ∈ samples := by
  unfold selectPercentile at h
  split at h
  · split at h
    · cases h
    · split at h
      · cases h
      · rename_i hfound
        cases h
        exact List.mem_of_find?_eq_some hfound
  · cases h

theorem accounts_of_readWindow (h : readWindow window percentile = .ok reading) :
    reading.Accounts window := by
  unfold readWindow at h
  cases hselect : selectPercentile (settled window) percentile with
  | error fault =>
    rw [hselect] at h
    cases h
  | ok sample =>
    rw [hselect] at h
    cases h
    have hmem := mem_of_selectPercentile hselect
    have hlength : (settled window).length = window.length - window.length / 2 := List.length_drop
    refine ⟨?_, List.length_pos_of_mem hmem, ?_, settled_eq_rtake window ▸ hmem⟩ <;>
      dsimp only <;> omega

/-- The first half of a window is not read. -/
theorem readWindow_of_settlesAs (h : SettlesAs window other) (percentile : Int) :
    readWindow window percentile = readWindow other percentile := by
  have hsettled : settled window = settled other := by
    rw [settled_eq_rtake, settled_eq_rtake, h.later_eq, h.length_eq]
  rw [readWindow, readWindow, hsettled, h.length_eq]

namespace WindowedController

variable {w : WindowedController}

theorem observe_of_reading (h : readWindow window w.percentile = readWindow other w.percentile) :
    w.observe window = w.observe other := by
  rw [observe, observe, step, step, h]

theorem observe_of_settlesAs (h : SettlesAs window other) : w.observe window = w.observe other :=
  observe_of_reading (readWindow_of_settlesAs h w.percentile)

theorem accounts_of_observe {step : WindowStep} (h : (w.observe window).1 = .ok step) :
    step.reading.Accounts window := by
  rcases w.observe_cases window with ⟨fault, -, hsame⟩ | ⟨reading, next, d, _, hread, hnext⟩
  · rw [hsame] at h
    cases h
  · rw [hnext] at h
    cases h
    exact accounts_of_readWindow hread

/-- Windows that differ in their first half alone give the same step or fail with the same fault, and lead
to the same state. A window with samples can be read, and its reading accounts for all of them. -/
theorem first_half_ignored (h : SettlesAs window other) :
    (∀ w : WindowedController, w.observe window = w.observe other) ∧
    (∀ percentile, readWindow window percentile = readWindow other percentile) ∧
    (∀ percentile, percentiles percentile → window ≠ [] →
      ∃ reading, readWindow window percentile = .ok reading ∧ reading.Accounts window) ∧
    ∀ (w : WindowedController) (step : WindowStep), (w.observe window).1 = .ok step →
      step.reading.Accounts window := by
  refine ⟨fun w => observe_of_settlesAs h, readWindow_of_settlesAs h, ?_,
    fun w step hstep => accounts_of_observe hstep⟩
  intro percentile hp hne
  obtain ⟨reading, hread, -⟩ := exists_readWindow hne hp
  exact ⟨reading, hread, accounts_of_readWindow hread⟩

/-- Of three samples the last two are considered, so a NaN before them is as good as an infinity. -/
theorem first_half_ignored_nan :
    fresh.observe (⟨.nan, .nan, .nan⟩ :: single 512.0 ++ single 600.0) =
        fresh.observe (⟨.nan, .nan, .infinity⟩ :: single 512.0 ++ single 600.0) ∧
      ∃ reading, readWindow (⟨.nan, .nan, .nan⟩ :: single 512.0 ++ single 600.0) 50 = .ok reading ∧
        reading.considered = 2 := by
  have hsettles : SettlesAs (⟨.nan, .nan, .nan⟩ :: single 512.0 ++ single 600.0)
    (⟨.nan, .nan, .infinity⟩ :: single 512.0 ++ single 600.0) := ⟨rfl, rfl⟩
  obtain ⟨hobserve, -, hread, -⟩ := first_half_ignored hsettles
  obtain ⟨reading, hreading, haccounts⟩ := hread 50 (by decide) (List.cons_ne_nil _ _)
  exact ⟨hobserve fresh, reading, hreading, haccounts.considered_eq⟩

end WindowedController

end Interleave
