import Interleave.Proofs.Window.Replay

/-!
# Controllers without a bandwidth

The law takes a loss of the bandwidth before. A controller whose last accepted bandwidth is zero
(`Dark`) has none to take it of, so it fails on every window at or above the threshold of the escape.
The escape takes no loss: a window below the threshold is accepted, and its total is the next
bandwidth. So a dark controller stays dark until a window below the threshold is not zero (`Lights`), and
a controller that has never seen a zero never fails.

The threshold is above 0 here. The bandwidth at the start and the totals are finite, and then so is
every bandwidth that a controller holds (`Sound`).

Results:
* `observe_eq_error_iff_dark`, `observe_of_dark`: which windows fail, how, and that they change nothing.
* `observe_accepts`: all others are accepted with their totals.
* `dark_after`: how long a controller stays dark.
* `results_of_not_dark`: without a zero it never becomes so.
* `fails_only_dark`: all series of windows from every start.
-/
namespace Interleave.WindowedController

open Number

/-- The last accepted bandwidth is zero, of either sign. -/
def Dark (w : WindowedController) : Prop := (w.state.bandwidth == 0.0) = true

/-- The window stands for this total. -/
def Reads (w : WindowedController) (window : List Sample) (total : Float) : Prop :=
  ∃ reading, readWindow window w.percentile = .ok reading ∧ reading.sample.total.toFloat = total

/-- The window stands for a total below the threshold that is not zero. -/
def Lights (w : WindowedController) (window : List Sample) : Prop :=
  ∃ total, w.Reads window total ∧ total < w.controller.config.lowBandwidthThreshold ∧
    (total == 0.0) = false

/-- A window with samples, and a finite total that stands for it. -/
def Usable (w : WindowedController) (window : List Sample) : Prop :=
  window ≠ [] ∧ ∀ total, w.Reads window total → total.isFinite = true

/-- The loss that a state would take of its bandwidth. -/
def lossOf (state : ControlState) : ChangeOf := if state.step = 0 then .coldStart else .damping

variable {w : WindowedController} {window : List Sample} {windows : List (List Sample)} {total : Float}
  {fault : ControlFault}

/-- What the results below ask of a controller, and what every controller after it keeps. -/
structure Sound (w : WindowedController) : Prop where
  threshold : 0.0 < w.controller.config.lowBandwidthThreshold
  finite : w.state.bandwidth.isFinite = true

/-! ## What windows leave as it is -/

theorem exists_reads (w : WindowedController) (hne : window ≠ []) : ∃ total, w.Reads window total := by
  obtain ⟨reading, hread, -⟩ := exists_readWindow hne w.percentile_mem
  exact ⟨_, reading, hread, rfl⟩

theorem reads_iff : w.Reads window total ↔
    (readWindow window w.percentile).map (·.sample.total.toFloat) = .ok total := by
  unfold Reads
  cases readWindow window w.percentile <;> simp [Except.map]

instance : Decidable (w.Reads window total) := decidable_of_iff' _ reads_iff

theorem Reads.unique {other : Float} (h : w.Reads window total) (h' : w.Reads window other) :
    total = other :=
  Except.ok.inj ((reads_iff.1 h).symm.trans (reads_iff.1 h'))

theorem Reads.usable (h : w.Reads window total) (hfinite : total.isFinite = true) :
    w.Usable window := by
  refine ⟨?_, fun other h' => h.unique h' ▸ hfinite⟩
  rintro rfl
  obtain ⟨reading, hread, -⟩ := h
  rw [readWindow_nil w.percentile_mem] at hread
  cases hread

theorem Usable.exists_total (h : w.Usable window) :
    ∃ total, w.Reads window total ∧ total.isFinite = true := by
  obtain ⟨total, hreads⟩ := w.exists_reads h.1
  exact ⟨total, hreads, h.2 total hreads⟩

section
variable {v : WindowedController} (hpercentile : v.percentile = w.percentile)
include hpercentile

theorem reads_congr : v.Reads window total ↔ w.Reads window total := by
  rw [Reads, hpercentile, Reads]

theorem usable_congr : v.Usable window ↔ w.Usable window := by
  simp only [Usable, reads_congr hpercentile]

theorem lights_congr (hcontroller : v.controller = w.controller) :
    v.Lights window ↔ w.Lights window := by
  simp only [Lights, reads_congr hpercentile, hcontroller]

end

theorem Sound.observe (h : w.Sound) (window : List Sample) : (w.observe window).2.Sound := by
  obtain ⟨hcontroller, hstate⟩ := w.observe_state window
  refine ⟨by rw [hcontroller]; exact h.threshold, ?_⟩
  rcases hstate with hsame | ⟨observed, d, hadvance⟩
  · rw [hsame]
    exact h.finite
  · exact ControllerConfig.finite_of_advance hadvance

theorem Sound.after (h : w.Sound) (windows : List (List Sample)) : (w.after windows).Sound := by
  induction windows generalizing w with
  | nil => exact h
  | cons window windows ih => exact ih (h.observe window)

/-! ## One window -/

section
variable (h : w.Sound) (hreads : w.Reads window total) (hfinite : total.isFinite = true)
include h hreads hfinite

/-- A window fails if and only if the controller is dark and the window reaches the threshold. -/
theorem observe_eq_error_iff_dark : (w.observe window).1 = .error fault ↔
    w.Dark ∧ w.controller.config.lowBandwidthThreshold ≤ total ∧
      fault = .divisionByZero (lossOf w.state) := by
  have hnumber := ControllerConfig.Valid.isFinite w.controller.valid
  rw [observe_eq_error_iff, le_iff_not_lt hnumber hfinite]
  obtain ⟨reading, hread, rfl⟩ := hreads
  constructor
  · intro hrefuses
    cases hrefuses with
    | empty hnil =>
      rw [hnil, readWindow_nil w.percentile_mem] at hread
      cases hread
    | law hread' hrefuses =>
      obtain rfl := Except.ok.inj (hread.symm.trans hread')
      cases hrefuses with
      | observed hinfinite =>
        rw [hfinite] at hinfinite
        cases hinfinite
      | before _ hinfinite =>
        rw [h.finite] at hinfinite
        cases hinfinite
      | coldStart _ _ hhigh hrest hzero => exact ⟨hzero, hhigh, by rw [lossOf, if_pos hrest]⟩
      | damping _ _ hhigh hmoving _ hzero => exact ⟨hzero, hhigh, by rw [lossOf, if_neg hmoving]⟩
  · rintro ⟨hdark, hhigh, rfl⟩
    refine .law hread ?_
    rcases eq_or_ne w.state.step 0 with hrest | hmoving
    · rw [lossOf, if_pos hrest]
      exact .coldStart hfinite h.finite hhigh hrest hdark
    · -- the total is above the zero before it, so this is no regression
      have hup : w.state.bandwidth < reading.sample.total.toFloat := by
        have hthreshold := h.threshold
        rw [lt_iff_value_lt rfl hnumber] at hthreshold
        rw [lt_iff_value_lt hfinite hnumber, not_lt] at hhigh
        rw [lt_iff_value_lt h.finite hfinite, (beq_iff_value_eq h.finite rfl).1 hdark]
        exact hthreshold.trans_le hhigh
      rw [lossOf, if_neg hmoving]
      exact .damping hfinite h.finite hhigh hmoving hup hdark

/-- On a dark controller, a window that reaches the threshold changes nothing. -/
theorem observe_of_dark (hdark : w.Dark)
    (hhigh : w.controller.config.lowBandwidthThreshold ≤ total) :
    w.observe window = (.error (.divisionByZero (lossOf w.state)), w) := by
  have hfault := (observe_eq_error_iff_dark h hreads hfinite).2 ⟨hdark, hhigh, rfl⟩
  exact Prod.ext hfault (observe_of_fault hfault)

/-- Where the controller is not dark or the total is below the threshold, the window is accepted, and
its total is the next bandwidth. -/
theorem observe_accepts (hlit : ¬w.Dark ∨ total < w.controller.config.lowBandwidthThreshold) :
    (∃ step, (w.observe window).1 = .ok step) ∧ (w.observe window).2.state.bandwidth = total := by
  rcases w.observe_cases window with ⟨fault, -, hsame⟩ | ⟨reading, next, d, hadvance, hread, hnext⟩
  · obtain ⟨hdark, hhigh, -⟩ :=
      (observe_eq_error_iff_dark h hreads hfinite).1 (congrArg Prod.fst hsame)
    rw [le_iff_not_lt (ControllerConfig.Valid.isFinite w.controller.valid) hfinite] at hhigh
    exact (hlit.elim (· hdark) hhigh).elim
  · rw [hnext]
    refine ⟨⟨_, rfl⟩, ?_⟩
    rw [ControllerConfig.advance_bandwidth hadvance]
    exact Reads.unique ⟨reading, hread, rfl⟩ hreads

/-- A dark controller stays dark with a window that does not light it. -/
theorem dark_observe (hdark : w.Dark) (hlights : ¬w.Lights window) : (w.observe window).2.Dark := by
  by_cases hlow : total < w.controller.config.lowBandwidthThreshold
  · rw [Dark, (observe_accepts h hreads hfinite (.inr hlow)).2]
    by_contra hlit
    exact hlights ⟨total, hreads, hlow, by simpa using hlit⟩
  · rw [← le_iff_not_lt (ControllerConfig.Valid.isFinite w.controller.valid) hfinite] at hlow
    rw [observe_of_dark h hreads hfinite hdark hlow]
    exact hdark

theorem not_dark_observe (hlit : ¬w.Dark ∨ total < w.controller.config.lowBandwidthThreshold)
    (hnonzero : (total == 0.0) = false) :
    (∃ step, (w.observe window).1 = .ok step) ∧ ¬(w.observe window).2.Dark := by
  obtain ⟨hok, hbandwidth⟩ := observe_accepts h hreads hfinite hlit
  refine ⟨hok, ?_⟩
  rw [Dark, hbandwidth, hnonzero]
  exact Bool.false_ne_true

end

/-! ## Series of windows -/

theorem dark_after (h : w.Sound) (hdark : w.Dark)
    (hwindows : ∀ window ∈ windows, w.Usable window ∧ ¬w.Lights window) :
    (w.after windows).Dark := by
  induction windows generalizing w with
  | nil => exact hdark
  | cons window windows ih =>
    obtain ⟨husable, hlights⟩ := hwindows window List.mem_cons_self
    obtain ⟨total, hreads, hfinite⟩ := husable.exists_total
    apply ih (h.observe window) (dark_observe h hreads hfinite hdark hlights)
    intro later hlater
    rw [usable_congr (w.observe_percentile window), lights_congr (w.observe_percentile window)
      (w.observe_state window).1]
    exact hwindows later (List.mem_cons_of_mem window hlater)

theorem results_of_not_dark (h : w.Sound) (hlit : ¬w.Dark)
    (hwindows : ∀ window ∈ windows, w.Usable window ∧
      ∀ total, w.Reads window total → (total == 0.0) = false) :
    ∀ result ∈ w.results windows, ∃ step, result = .ok step := by
  induction windows generalizing w with
  | nil => exact fun _ hnone => absurd hnone List.not_mem_nil
  | cons window windows ih =>
    obtain ⟨husable, hnonzero⟩ := hwindows window List.mem_cons_self
    obtain ⟨total, hreads, hfinite⟩ := husable.exists_total
    obtain ⟨hok, hlit'⟩ := not_dark_observe h hreads hfinite (.inl hlit) (hnonzero total hreads)
    have hlater := ih (h.observe window) hlit' (by
      intro later hlater
      simp only [usable_congr (w.observe_percentile window), reads_congr (w.observe_percentile window)]
      exact hwindows later (List.mem_cons_of_mem window hlater))
    intro result hresult
    rcases List.mem_cons.1 hresult with rfl | hresult
    · exact hok
    · exact hlater result hresult

/-- How a controller fails on a series of windows. -/
structure FailsOnlyDark (w : WindowedController) (windows : List (List Sample)) : Prop where
  /-- A window fails if and only if it finds the controller dark and reaches the threshold, and then by
  a division by zero. -/
  fails_iff : ∀ before window later, windows = before ++ window :: later →
    ∃ total, w.Reads window total ∧ ∀ fault, ((w.after before).observe window).1 = .error fault ↔
      (w.after before).Dark ∧ w.controller.config.lowBandwidthThreshold ≤ total ∧
        fault = .divisionByZero (lossOf (w.after before).state)
  /-- From where the controller is dark on, as long as no window lights it, every window that reaches
  the threshold fails so and leaves the controller as it is. -/
  repeats : ∀ before during window later total, windows = before ++ (during ++ window :: later) →
    (w.after before).Dark → (∀ u ∈ during, ¬w.Lights u) → w.Reads window total →
    w.controller.config.lowBandwidthThreshold ≤ total →
    (w.after (before ++ during)).observe window =
      (.error (.divisionByZero (lossOf (w.after (before ++ during)).state)), w.after (before ++ during))
  /-- A window that lights the controller is accepted, dark or not. -/
  lit : ∀ before window later, windows = before ++ window :: later → w.Lights window →
    (∃ step, ((w.after before).observe window).1 = .ok step) ∧
      ¬((w.after before).observe window).2.Dark
  /-- Without a zero nothing fails. -/
  never : ¬w.Dark → (∀ window ∈ windows, ∀ total, w.Reads window total → (total == 0.0) = false) →
    ∀ result ∈ w.results windows, ∃ step, result = .ok step

/-- Started at a finite bandwidth, with a threshold above 0, a controller fails on windows of finite
totals only where it is dark. -/
theorem fails_only_dark {config : ControllerConfig} {percentile : Int} {initial : ControlState}
    (hstart : start config percentile initial = .ok w)
    (hthreshold : 0.0 < config.lowBandwidthThreshold) (hfinite : initial.bandwidth.isFinite = true)
    (husable : ∀ window ∈ windows, w.Usable window) : w.FailsOnlyDark windows := by
  obtain ⟨rfl, rfl⟩ := start_eq hstart
  have hsound : w.Sound := ⟨hthreshold, hfinite⟩
  refine ⟨?_, ?_, ?_, ?_⟩
  · rintro before window later rfl
    obtain ⟨total, hreads, hnumber⟩ := (husable window (by simp)).exists_total
    refine ⟨total, hreads, fun fault => ?_⟩
    rw [observe_eq_error_iff_dark (hsound.after before)
      ((reads_congr (w.after_percentile before)).2 hreads) hnumber, w.after_controller]
  · rintro before during window later total rfl hdark hlights hreads hhigh
    have hdark' : (w.after (before ++ during)).Dark := by
      rw [after_append]
      apply dark_after (hsound.after before) hdark
      intro u hu
      rw [usable_congr (w.after_percentile before), lights_congr (w.after_percentile before)
        (w.after_controller before)]
      exact ⟨husable u (by simp [hu]), hlights u hu⟩
    apply observe_of_dark (hsound.after _) ((reads_congr (w.after_percentile _)).2 hreads)
      ((husable window (by simp)).2 total hreads) hdark'
    rw [w.after_controller]
    exact hhigh
  · rintro before window later rfl ⟨total, hreads, hlow, hnonzero⟩
    rw [← w.after_controller before] at hlow
    exact not_dark_observe (hsound.after before) ((reads_congr (w.after_percentile before)).2 hreads)
      ((husable window (by simp)).2 total hreads) (.inr hlow) hnonzero
  · intro hlit hnonzero
    exact results_of_not_dark hsound hlit fun window hwindow =>
      ⟨husable window hwindow, hnonzero window hwindow⟩

/-- The default configuration on the move, at an ordinary bandwidth. -/
def moving : WindowedController :=
  ⟨⟨{}, ControllerConfig.valid_default⟩, 90, ⟨50, 4, 300.0⟩, by decide, by decide⟩

/-- One idle window, ordinary ones, and one below the threshold before the last of them. -/
def idled : List Float := [0.0, 300.0, 300.0, 100.0, 300.0]

/-- After the idle window the ordinary ones fail, up to the one below the threshold. -/
theorem fails_only_dark_idled : (moving.after [single 0.0]).Dark ∧
    ((moving.after [single 0.0]).observe (single 300.0)).1 = .error (.divisionByZero .damping) ∧
    (moving.after [single 0.0, single 300.0]).observe (single 300.0) =
      (.error (.divisionByZero .damping), moving.after [single 0.0, single 300.0]) ∧
    ¬(moving.after ([0.0, 300.0, 300.0, 100.0].map single)).Dark := by
  have hreads : ∀ total ∈ idled, moving.Reads (single total) total := by decide +kernel
  have hfinite : ∀ total ∈ idled, total.isFinite = true := by decide +kernel
  have husable : ∀ window ∈ idled.map single, moving.Usable window := by
    intro window hwindow
    obtain ⟨total, htotal, rfl⟩ := List.mem_map.1 hwindow
    exact (hreads total htotal).usable (hfinite total htotal)
  have hstart : start {} 90 ⟨50, 4, 300.0⟩ = .ok moving := rfl
  have h : moving.FailsOnlyDark (idled.map single) :=
    fails_only_dark hstart (by decide +kernel) rfl husable
  have hdark : (moving.after [single 0.0]).Dark := by
    unfold Dark
    decide +kernel
  have hordinary : moving.Reads (single 300.0) 300.0 := by decide +kernel
  have hhigh : ¬(300.0 : Float) < moving.controller.config.lowBandwidthThreshold := by decide +kernel
  have hlights : ¬moving.Lights (single 300.0) := by
    rintro ⟨total, hreads', hlow, -⟩
    rw [← hordinary.unique hreads'] at hlow
    exact hhigh hlow
  have hlow : moving.Lights (single 100.0) :=
    ⟨100.0, by decide +kernel, by decide +kernel, by decide +kernel⟩
  rw [← le_iff_not_lt (by decide +kernel) rfl] at hhigh
  refine ⟨hdark, ?_, ?_, ?_⟩
  · obtain ⟨total, hreads', hfails⟩ := h.fails_iff [single 0.0] (single 300.0) _ rfl
    obtain rfl := hordinary.unique hreads'
    exact (hfails _).2 ⟨hdark, hhigh, by decide +kernel⟩
  · have hmoving : lossOf (moving.after [single 0.0, single 300.0]).state = .damping := by
      decide +kernel
    rw [← hmoving]
    exact h.repeats [single 0.0] [single 300.0] (single 300.0) _ 300.0 rfl hdark
      (by simpa using hlights) hordinary hhigh
  · exact (h.lit ([0.0, 300.0, 300.0].map single) (single 100.0) _ rfl hlow).2

end Interleave.WindowedController
