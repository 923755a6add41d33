import Interleave.Proofs.Curve.Query
import Interleave.Proofs.Simulation.Links
import Interleave.Proofs.Simulation.Convergence

/-!
# Flat curves

Where the bandwidth is the same at every ratio, nothing but the first step is won or lost by moving:
every later iteration takes its step for a regression, turns it and halves it. The ratio has room for
that, as it comes from there (`Turning`). So the step alone decides. Where a half is smaller (`Halves`),
it dies out. Where a half of 1 is 1 again, it never does: the ratio ends up between two neighbours, and
one percent is taken back and forth until the cap stops the run.

Results:
* `Turning.exists_climbs`, `Turning.not_climbs`: from a state on the move, a climb of a flat curve ends
  if a half is smaller, and only then.
* `flat_converges_iff`: when a run on a flat curve converges, how soon, and what it does otherwise.
* `plateau_swings`: a configuration that nothing is wrong with and that never comes to rest.
-/
namespace Interleave

open Number

/-- The curve has one bandwidth, at every ratio. -/
def Curve.Flat (curve : Curve) (bandwidth : Float) : Prop :=
  ∀ ratio ≤ Interleave.maxRatio, curve.get ratio = .ok bandwidth

/-- The one bandwidth is that of the first record. -/
theorem Curve.Flat.isFinite {curve : Curve} {bandwidth : Float} (h : curve.Flat bandwidth) :
    bandwidth.isFinite = true := by
  have hfirst := List.head_mem curve.nonempty
  have hget := h _ (curve.ratio_le _ hfirst)
  rw [Curve.get_of_mem hfirst] at hget
  cases hget
  exact curve.isFinite _ hfirst

/-! ## Turned steps -/

namespace ControllerConfig

/-- What the limits leave of a step that is reversed. -/
def turn (c : ControllerConfig) (step : Int) : Int := (c.limit (c.reversedStep step)).step

variable {c : ControllerConfig} {step : Int}

theorem turn_cases (hc : c.Valid) (step : Int) :
    c.turn step = 0 ∨ c.Kept (c.reversedStep step) (c.turn step) :=
  c.limit_cases hc (Step.inWord_saturate _)

/-- What is left of a step leads back. -/
theorem turn_direction (hc : c.Valid) (hword : Step.InWord step) :
    (0 < step → c.turn step ≤ 0) ∧ (step < 0 → 0 ≤ c.turn step) := by
  rcases turn_cases hc step with h0 | hkept
  · omega
  · have hneg := hkept.neg_iff
    have hle := hkept.le
    have hproposed := reversedStep_eq c hword
    constructor
    · intro hup
      rw [Int.sign_eq_one_of_pos hup, one_mul] at hproposed
      omega
    · intro hdown
      rw [Int.sign_eq_neg_one_of_neg hdown, neg_one_mul, neg_neg] at hproposed
      omega

/-- Rounded to the nearest, half of a step is a step, which the dead zone has to stop. -/
theorem turn_ne_zero (hc : c.Valid) (hnot : ¬c.Halves) (hword : Step.InWord step)
    (hmoving : step ≠ 0) : c.turn step ≠ 0 := by
  obtain ⟨hnearest, hdead⟩ := not_or.1 hnot
  have hmode : c.rounding = .nearest := by
    cases hrounding : c.rounding with
    | nearest => rfl
    | towardZero => exact absurd hrounding hnearest
  have hsize := natAbs_reversedStep (c := c) hword hmoving
  rw [hmode] at hsize
  dsimp only [Rounding.quotient] at hsize
  have hmax := hc.le.2.1
  unfold turn limit Step.magnitude Step.maxValue
  split
  · omega
  · split
    · dsimp only
      exact mul_ne_zero (by omega) (by rw [Ne, Int.sign_eq_zero_iff_zero]; omega)
    · dsimp only
      omega

/-- Rounded to the nearest or not, a turned step has lost half of what it has beyond 1. -/
theorem natAbs_turn_le (hc : c.Valid) (hword : Step.InWord step) (hmoving : step ≠ 0) :
    (c.turn step).natAbs - 1 ≤ (step.natAbs - 1) / 2 := by
  rcases turn_cases hc step with h0 | hkept
  · rw [h0]
    exact Nat.zero_le _
  · have hle := hkept.le
    rw [natAbs_reversedStep hword hmoving] at hle
    unfold Rounding.quotient at hle
    split at hle <;> omega

/-- Half of 1 is 1 again. -/
theorem turn_of_one (hc : c.Valid) (hnot : ¬c.Halves) (hword : Step.InWord step)
    (hone : step.natAbs = 1) : c.turn step = -step := by
  have hleft := turn_ne_zero hc hnot hword (by omega)
  have hsize := natAbs_turn_le hc hword (by omega)
  have hback := turn_direction hc hword
  omega

end ControllerConfig

/-! ## States on the move -/

/-- A state on the move on a flat curve: the ratio has room to turn back. -/
structure Turning (bandwidth : Float) (state : ControlState) : Prop where
  inWord : Step.InWord state.step
  moving : state.step ≠ 0
  ratio_le : state.ratio ≤ maxRatio
  pos_of_up : 0 < state.step → 0 < state.ratio
  lt_of_down : state.step < 0 → state.ratio < maxRatio
  bandwidth : state.bandwidth = bandwidth

section
variable {controller : Controller} {curve : Curve} {phase : Phase} {bandwidth : Float} {i : Nat}
  {state next : ControlState} {decision : Decision}

/-- An iteration that moves the ratio leaves room to turn back. -/
theorem turning_of_moved (hflat : curve.Flat bandwidth) (hword : Step.InWord state.step)
    (hratio : state.ratio ≤ maxRatio) (hstep : controller.iterate curve state = .ok (next, decision))
    (hmoved : next.ratio ≠ state.ratio) : Turning bandwidth next := by
  obtain ⟨hget, hadvance⟩ := Controller.iterate_ok hstep
  obtain ⟨hword', hmoving⟩ := ControllerConfig.inWord_of_moved controller.valid hword hratio hadvance
    hmoved
  obtain ⟨-, hnext⟩ := ControllerConfig.kept_of_moved controller.valid hword hratio hadvance hmoved
  refine ⟨hword', hmoving, ControllerConfig.advance_ratio_le hadvance, ?_, ?_, ?_⟩
  · intro hup
    rw [moveRatio_up hup.le] at hnext
    omega
  · intro hdown
    rw [moveRatio_down hratio hdown.le] at hnext
    omega
  · rw [hflat state.ratio hratio] at hget
    cases hget
    rfl

namespace Turning

variable (h : Turning bandwidth state) (hflat : curve.Flat bandwidth)
  (hhigh : ¬bandwidth < controller.config.lowBandwidthThreshold)
include h hflat hhigh

/-- One iteration turns the step, and moves the ratio by what the limits leave of it. -/
theorem exists_iterate : ∃ next decision, controller.iterate curve state = .ok (next, decision) ∧
    next.step = controller.config.turn state.step ∧
    (next.ratio : Int) = max 0 (min (state.ratio + next.step) maxRatio) := by
  have hiterate : controller.iterate curve state = .ok (controller.config.apply state bandwidth
      .regressing (controller.config.reversedStep state.step)) := by
    unfold Controller.iterate
    rw [hflat state.ratio h.ratio_le]
    exact ControllerConfig.advance_of_same hflat.isFinite hhigh h.bandwidth h.moving
  refine ⟨_, _, hiterate, rfl, ?_⟩
  simp only [moveRatio]
  omega

/-- The ratio has room for the turned step, so it stays only if nothing is left of that. -/
theorem iterate_eq (hstep : controller.iterate curve state = .ok (next, decision)) :
    next.step = controller.config.turn state.step ∧
      (next.ratio = state.ratio ↔ next.step = 0) ∧
      (next.step.natAbs = 1 → (next.ratio : Int) = state.ratio + next.step) := by
  obtain ⟨next', decision', hstep', hturn, hratio⟩ := h.exists_iterate hflat hhigh
  rw [hstep] at hstep'
  cases hstep'
  have hback := ControllerConfig.turn_direction controller.valid h.inWord
  have hmoving := h.moving
  have hdown := h.pos_of_up
  have hup := h.lt_of_down
  have hle := h.ratio_le
  exact ⟨hturn, by omega, by omega⟩

theorem turning_next (hstep : controller.iterate curve state = .ok (next, decision)) (hleft : next.step ≠ 0) :
    Turning bandwidth next := by
  have hmoves := (h.iterate_eq hflat hhigh hstep).2.1
  exact turning_of_moved hflat h.inWord h.ratio_le hstep (fun hratio => hleft (hmoves.1 hratio))

/-- Where a half is smaller, the step dies out: each reversal takes one of its binary digits. -/
theorem exists_climbs (hhalves : controller.config.Halves) (phase : Phase) (i : Nat) :
    ∃ observed final, Climbs controller curve phase i state observed (.ok final) ∧ final.step = 0 ∧
      observed.length ≤ controller.config.halvings state.step + 1 := by
  induction hn : controller.config.halvings state.step using Nat.strong_induction_on
    generalizing i state with
  | _ n ih =>
    obtain ⟨next, decision, hstep, hturn, -⟩ := h.exists_iterate hflat hhigh
    have hmoves := (h.iterate_eq hflat hhigh hstep).2.1
    by_cases hleft : next.step = 0
    · exact ⟨_, next, .converged hstep (hmoves.2 hleft), hleft, by simp⟩
    · have hkept := (ControllerConfig.turn_cases controller.valid state.step).resolve_left
        (hturn ▸ hleft)
      have hlt := ControllerConfig.halvings_lt hhalves h.inWord hkept
      rw [← hturn, hn] at hlt
      obtain ⟨observed, final, hclimb, hrest, hlen⟩ :=
        ih _ hlt (h.turning_next hflat hhigh hstep hleft) (i + 1) rfl
      refine ⟨_, final, .moved hstep (fun hratio => hleft (hmoves.1 hratio)) hclimb, hrest, ?_⟩
      rw [List.length_cons]
      omega

/-- Where it is not, no climb ever ends. -/
theorem not_climbs (hnot : ¬controller.config.Halves) {observed : List Observation}
    {outcome : Except ControlFault ControlState} :
    ¬Climbs controller curve phase i state observed outcome := by
  intro hclimb
  induction hclimb with
  | failed hstep =>
    obtain ⟨next, decision, hstep', -⟩ := h.exists_iterate hflat hhigh
    rw [hstep] at hstep'
    cases hstep'
  | converged hstep hratio =>
    obtain ⟨hturn, hmoves, -⟩ := h.iterate_eq hflat hhigh hstep
    exact ControllerConfig.turn_ne_zero controller.valid hnot h.inWord h.moving
      (hturn ▸ hmoves.1 hratio)
  | moved hstep hmoved _ ih =>
    exact ih (turning_of_moved hflat h.inWord h.ratio_le hstep hmoved)

end Turning

end

/-! ## Runs -/

/-- One percent is taken and given back at once. -/
structure Swing (before here : TracePoint) : Prop where
  size : before.step.natAbs = 1
  step : here.step = -before.step
  ratio : (here.ratio : Int) = before.ratio + here.step

/-- From point `start` on, the run does nothing but swing. -/
def Run.SwingsFrom (run : Run) (start : Nat) : Prop :=
  ∀ k before here, start ≤ k → run.observed[k]? = some before → run.observed[k + 1]? = some here →
    Swing before.point here.point

theorem halvings_le_of_inWord {c : ControllerConfig} {step : Int} (h : Step.InWord step) :
    c.halvings step ≤ 31 := by
  have hsize := h.natAbs_le
  have hlog : (2 ^ 31 : Nat).log2 = 31 := Nat.log2_two_pow
  unfold ControllerConfig.halvings
  split
  · exact (log2_mono (by omega)).trans_eq hlog
  · exact (log2_mono hsize).trans_eq hlog

namespace Simulator

variable {s : Simulator} {bandwidth : Float}

/-- The first iteration moves the ratio. -/
def Departs (s : Simulator) : Prop :=
  ∃ next decision, s.controller.iterate s.primary s.initial = .ok (next, decision) ∧
    next.ratio ≠ s.config.initialRatio

/-- A run of one curve ends where its climb converges, if the cap leaves room for that. -/
theorem run_of_converged (hnone : s.secondary = none) {climbed : List Observation}
    {final : ControlState}
    (hclimb : Climbs s.controller s.primary .primary 1 s.initial climbed (.ok final))
    (hfits : climbed.length < s.config.maxIterations) :
    ∃ t, s.run.result = .ok t ∧ t.points.length = climbed.length + 1 ∧
      t.points.getLast?.map (·.step) = some final.step := by
  have hrun := (Course.single hnone hclimb).run_eq
  rw [Run.within_of_le (by simpa [room] using hfits)] at hrun
  obtain ⟨before, decision, rfl⟩ := hclimb.exists_last
  refine ⟨_, by rw [hrun], by simp [Trace.ofObserved], ?_⟩
  rw [Trace.ofObserved, ← List.cons_append, List.map_append, List.map_singleton, List.getLast?_concat]
  rfl

section
variable (hflat : s.primary.Flat bandwidth)
  (hhigh : ¬bandwidth < s.controller.config.lowBandwidthThreshold)
include hflat

theorem turning_of_departed {next : ControlState} {decision : Decision}
    (hstep : s.controller.iterate s.primary s.initial = .ok (next, decision))
    (hmoved : next.ratio ≠ s.config.initialRatio) : Turning bandwidth next :=
  turning_of_moved hflat (by decide : Step.InWord 0) s.valid.bounds.1 hstep hmoved

include hhigh

/-- A run that does not depart is over with its first iteration. -/
theorem climbs_of_not_departs (hstays : ¬s.Departs) : ∃ observed final,
    Climbs s.controller s.primary .primary 1 s.initial observed (.ok final) ∧
      observed.length = 1 := by
  obtain ⟨hbefore, hnonzero⟩ := SimulatorConfig.Valid.usable s.valid
  have hiterate : s.controller.iterate s.primary s.initial = .ok (s.controller.config.apply s.initial
      bandwidth .coldStart (s.controller.config.coldStep s.config.initialRatio
        ((s.config.initialBandwidth - bandwidth) / s.config.initialBandwidth))) := by
    unfold Controller.iterate
    rw [hflat s.initial.ratio s.valid.bounds.1]
    exact ControllerConfig.advance_of_rest hflat.isFinite hhigh rfl hbefore hnonzero
  refine ⟨_, _, .converged hiterate ?_, rfl⟩
  by_contra hmoved
  exact hstays ⟨_, _, hiterate, hmoved⟩

theorem climbs_of_halves (hhalves : s.controller.config.Halves) (hdeparts : s.Departs) :
    ∃ observed final, Climbs s.controller s.primary .primary 1 s.initial observed (.ok final) ∧
      final.step = 0 ∧ observed.length ≤ 33 := by
  obtain ⟨next, decision, hstep, hmoved⟩ := hdeparts
  have hturning := turning_of_departed hflat hstep hmoved
  obtain ⟨observed, final, hclimb, hrest, hlen⟩ :=
    hturning.exists_climbs hflat hhigh hhalves .primary 2
  have hbound := halvings_le_of_inWord (c := s.controller.config) hturning.inWord
  refine ⟨_, final, .moved hstep hmoved hclimb, hrest, ?_⟩
  rw [List.length_cons]
  omega

theorem timesOut_of_departs (hnot : ¬s.controller.config.Halves) (hdeparts : s.Departs) :
    s.run.TimesOut s.config.maxIterations := by
  obtain ⟨next, decision, hstep, hmoved⟩ := hdeparts
  have hturning := turning_of_departed hflat hstep hmoved
  rcases climb_cases s.controller s.primary .primary (s.config.maxIterations - 1) 1 s.initial with
    ⟨observed, outcome, hclimb, -⟩ | ⟨hend, hlen⟩
  · cases hclimb with
    | failed hstep' =>
      rw [hstep] at hstep'
      cases hstep'
    | converged hstep' hratio =>
      rw [hstep] at hstep'
      cases hstep'
      exact absurd hratio hmoved
    | moved hstep' _ hrest =>
      rw [hstep] at hstep'
      cases hstep'
      exact absurd hrest (hturning.not_climbs hflat hhigh hnot)
  · exact timesOut_of_first hend hlen

/-- The points after the first one are on the move, by steps that fall to 1. -/
theorem firstClimb_turning (hnot : ¬s.controller.config.Halves) (hdeparts : s.Departs) {k : Nat}
    {here : Observation} (hhere : s.firstClimb.1[k]? = some here) :
    Turning bandwidth here.point.state ∧ here.point.step.natAbs - 1 ≤ (2 ^ 31 - 1) / 2 ^ k := by
  induction k generalizing here with
  | zero =>
    obtain ⟨next, decision, hstep, rfl, -⟩ := climb_link s.first rfl rfl hhere
    obtain ⟨next', decision', hstep', hmoved⟩ := hdeparts
    obtain ⟨rfl, -⟩ := Prod.mk.inj (Except.ok.inj (hstep.symm.trans hstep'))
    have hturning := turning_of_departed hflat hstep hmoved
    have hsize := hturning.inWord.natAbs_le
    refine ⟨hturning, ?_⟩
    change next.step.natAbs - 1 ≤ (2 ^ 31 - 1) / 2 ^ 0
    omega
  | succ k ih =>
    have hk := (List.getElem?_eq_some_iff.1 hhere).1
    obtain ⟨before, hbefore⟩ : ∃ before, s.firstClimb.1[k]? = some before :=
      ⟨_, List.getElem?_eq_getElem (by omega)⟩
    obtain ⟨hturning, hsize⟩ := ih hbefore
    obtain ⟨next, decision, hstep, rfl, -⟩ := climb_link s.first rfl hbefore hhere
    obtain ⟨hturn, -⟩ := hturning.iterate_eq hflat hhigh hstep
    have hleft := ControllerConfig.turn_ne_zero s.controller.valid hnot hturning.inWord hturning.moving
    have hhalf := ControllerConfig.natAbs_turn_le s.controller.valid hturning.inWord hturning.moving
    rw [← hturn] at hleft hhalf
    refine ⟨hturning.turning_next hflat hhigh hstep hleft, ?_⟩
    calc next.step.natAbs - 1
        ≤ (before.point.step.natAbs - 1) / 2 := hhalf
      _ ≤ (2 ^ 31 - 1) / 2 ^ k / 2 := Nat.div_le_div_right hsize
      _ = (2 ^ 31 - 1) / 2 ^ (k + 1) := by rw [Nat.div_div_eq_div_mul, ← Nat.pow_succ]

theorem swingsFrom_of_departs (hnone : s.secondary = none) (hnot : ¬s.controller.config.Halves)
    (hdeparts : s.Departs) : s.run.SwingsFrom 32 := by
  have hobserved : s.run.observed = s.first :: s.firstClimb.1 := by
    rcases s.observed_cases with h | ⟨curve, -, -, -, hsome, -⟩
    · exact h
    · rw [hnone] at hsome
      cases hsome
  intro k before here hk hbefore hhere
  obtain ⟨k, rfl⟩ : ∃ j, k = j + 1 := ⟨k - 1, by omega⟩
  rw [hobserved, List.getElem?_cons_succ] at hbefore hhere
  obtain ⟨hturning, hsize⟩ := firstClimb_turning hflat hhigh hnot hdeparts hbefore
  obtain ⟨next, decision, hstep, rfl, -⟩ := climb_link s.first rfl hbefore hhere
  obtain ⟨hturn, -, hmoves⟩ := hturning.iterate_eq hflat hhigh hstep
  have hsmall : 2 ^ 31 ≤ 2 ^ k := Nat.pow_le_pow_right (by decide) (by omega)
  rw [Nat.div_eq_of_lt (by omega)] at hsize
  have hone : before.point.step.natAbs = 1 := by
    have hmoving := hturning.moving
    change before.point.step ≠ 0 at hmoving
    omega
  have hnext : next.step = -before.point.step :=
    hturn.trans (ControllerConfig.turn_of_one s.controller.valid hnot hturning.inWord hone)
  exact ⟨hone, hnext, hmoves (by rw [hnext, Int.natAbs_neg, hone])⟩

end

end Simulator

/-- On a flat curve, above the threshold of the escape, a run converges if and only if its first
iteration leaves the ratio where it is or a half of a step is smaller. Within 34 points it has
converged, with no step left where it has moved. Otherwise it times out whatever the cap is, and from
point 32 on it only takes one percent back and forth. -/
theorem flat_converges_iff (s : Simulator) {bandwidth : Float} (hnone : s.secondary = none)
    (hflat : s.primary.Flat bandwidth)
    (hhigh : ¬bandwidth < s.controller.config.lowBandwidthThreshold)
    (hcap : 34 ≤ s.config.maxIterations) :
    ((∃ t, s.run.result = .ok t) ↔ s.controller.config.Halves ∨ ¬s.Departs) ∧
    (∀ t, s.run.result = .ok t →
      t.points.length ≤ 34 ∧ (s.Departs → t.points.getLast?.map (·.step) = some 0)) ∧
    (¬s.controller.config.Halves → s.Departs →
      s.run.TimesOut s.config.maxIterations ∧ s.run.SwingsFrom 32) := by
  have hswings (hnot : ¬s.controller.config.Halves) (hdeparts : s.Departs) :
      s.run.TimesOut s.config.maxIterations ∧ s.run.SwingsFrom 32 :=
    ⟨Simulator.timesOut_of_departs hflat hhigh hnot hdeparts,
      Simulator.swingsFrom_of_departs hflat hhigh hnone hnot hdeparts⟩
  have hconverges (h : s.controller.config.Halves ∨ ¬s.Departs) : ∃ t, s.run.result = .ok t ∧
      t.points.length ≤ 34 ∧ (s.Departs → t.points.getLast?.map (·.step) = some 0) := by
    by_cases hdeparts : s.Departs
    · obtain ⟨observed, final, hclimb, hrest, hlen⟩ :=
        Simulator.climbs_of_halves hflat hhigh (h.resolve_right (not_not.2 hdeparts)) hdeparts
      obtain ⟨t, hrun, hpoints, hlast⟩ := Simulator.run_of_converged hnone hclimb (by omega)
      exact ⟨t, hrun, by omega, fun _ => by rw [hlast, hrest]⟩
    · obtain ⟨observed, final, hclimb, hlen⟩ := Simulator.climbs_of_not_departs hflat hhigh hdeparts
      obtain ⟨t, hrun, hpoints, -⟩ := Simulator.run_of_converged hnone hclimb (by omega)
      exact ⟨t, hrun, by omega, fun h => absurd h hdeparts⟩
  have hiff : (∃ t, s.run.result = .ok t) ↔ s.controller.config.Halves ∨ ¬s.Departs := by
    constructor
    · rintro ⟨t, hrun⟩
      by_contra h
      obtain ⟨hnot, hdeparts⟩ := not_or.1 h
      obtain ⟨⟨hout, -⟩, -⟩ := hswings hnot (not_not.1 hdeparts)
      rw [hrun] at hout
      cases hout
    · intro h
      obtain ⟨t, hrun, -⟩ := hconverges h
      exact ⟨t, hrun⟩
  refine ⟨hiff, ?_, hswings⟩
  intro t hrun
  obtain ⟨t', hrun', hshort⟩ := hconverges (hiff.1 ⟨t, hrun⟩)
  rw [hrun] at hrun'
  cases hrun'
  exact hshort

/-- One bandwidth at every ratio, interpolated without an error. -/
def Curve.plateau : Curve :=
  ⟨[⟨0, 512.0⟩, ⟨100, 512.0⟩], by decide, by simp [CurvePoint.Ascending], by decide, by decide⟩

theorem flat_plateau : Curve.plateau.Flat 512.0 := by
  unfold Curve.Flat
  decide +kernel

/-- The default simulator on a flat curve. -/
def Simulator.settling : Simulator :=
  { Simulator.rising with config := {}, valid := by decide, primary := .plateau, secondary := none }

/-- The same without a dead zone. -/
def Simulator.swinging : Simulator :=
  { Simulator.settling with controller := ⟨{ minStep := 1 }, by decide⟩ }

theorem departs_settling : Simulator.settling.Departs :=
  ⟨⟨92, -8, 512.0⟩, ⟨.coldStart, -51100, false, true, false⟩, by decide +kernel, by decide⟩

theorem departs_swinging : Simulator.swinging.Departs :=
  ⟨⟨92, -8, 512.0⟩, ⟨.coldStart, -51100, false, true, false⟩, by decide +kernel, by decide⟩

/-- The default dead zone stops the step, a dead zone of 1 does not. -/
theorem flat_converges_iff_plateau :
    (∃ t, Simulator.settling.run.result = .ok t ∧ t.points.length ≤ 34 ∧
        t.points.getLast?.map (·.step) = some 0) ∧
      Simulator.swinging.run.TimesOut 1000 ∧ Simulator.swinging.run.SwingsFrom 32 := by
  obtain ⟨hiff, hshort, -⟩ := flat_converges_iff Simulator.settling rfl flat_plateau
    (by decide +kernel) (by decide)
  obtain ⟨t, hrun⟩ := hiff.2 (.inl (by decide))
  obtain ⟨hlen, hlast⟩ := hshort t hrun
  obtain ⟨-, -, hswings⟩ := flat_converges_iff Simulator.swinging rfl flat_plateau
    (by decide +kernel) (by decide)
  exact ⟨⟨t, hrun, hlen, hlast departs_settling⟩, hswings (by decide) departs_swinging⟩

/-- So not every configuration that nothing is wrong with comes to rest: a dead zone of 1 is allowed,
and the run on a flat curve times out at the default cap. -/
theorem plateau_swings :
    Simulator.swinging.controller.config = { minStep := 1 } ∧
      Simulator.swinging.controller.config.Valid ∧ Simulator.swinging.config = {} ∧
      Curve.plateau.Flat 512.0 ∧
      ¬(512.0 : Float) < Simulator.swinging.controller.config.lowBandwidthThreshold ∧
      Simulator.swinging.run.result = .error (.noConvergence 1000) := by
  have hhigh : ¬(512.0 : Float) < Simulator.swinging.controller.config.lowBandwidthThreshold := by
    decide +kernel
  have hout := Simulator.timesOut_of_departs flat_plateau hhigh (by decide) departs_swinging
  exact ⟨rfl, Simulator.swinging.controller.valid, rfl, flat_plateau, hhigh, hout.1⟩

end Interleave
