import Interleave.Proofs.Simulation.Shape

/-!
# The trace replays the control law

A trace holds what the simulator knew: every point with a rule is what the control law makes of the
point before it and of the bandwidth that the curve of its phase has there. Only the first point of
the second phase starts from rest, whatever step the point before it shows.

Results:
* `trace_replays`: every point with a rule replays the law (`Replays`), and a trace is determined by
  the curves, the configuration without the cap and its first point.
-/
namespace Interleave

/-- The step that the law goes on from at point `i`, where `before` is the point before: the second
phase starts from rest. -/
def Trace.stepBefore (t : Trace) (i : Nat) (before : TracePoint) : Int :=
  if t.points.findIdx? (·.phase = .secondary) = some i then 0 else before.step

namespace Simulator

/-- The curve that a phase follows. -/
def curveOf (s : Simulator) : Phase → Option Curve
  | .primary => some s.primary
  | .secondary => s.secondary

/-- Point `i` is what the law makes of the point before it, at the bandwidth that the curve of its
phase has there. -/
def Replays (s : Simulator) (t : Trace) (i : Nat) : Prop :=
  ∃ before here curve decision, t.points[i - 1]? = some before ∧ t.points[i]? = some here ∧
    s.curveOf here.phase = some curve ∧ curve.get before.ratio = .ok here.bandwidth ∧
    s.controller.advance ⟨before.ratio, t.stepBefore i before, before.bandwidth⟩ here.bandwidth =
      .ok (⟨here.ratio, here.step, here.bandwidth⟩, decision) ∧
    here.rule = some decision.rule

end Simulator

/-! ## Where the second phase starts -/

theorem Trace.SinglePhase.stepBefore {t : Trace} {primaryAt : Nat} (h : t.SinglePhase primaryAt)
    (i : Nat) (before : TracePoint) : t.stepBefore i before = before.step := by
  have hnone : t.points.findIdx? (·.phase = .secondary) = none :=
    List.findIdx?_eq_none_iff.2 fun p hp => by simp [h.phase p hp]
  rw [Trace.stepBefore, hnone, if_neg nofun]

theorem Trace.TwoPhases.stepBefore {t : Trace} {primaryAt switchedAt secondaryAt : Nat}
    (h : t.TwoPhases primaryAt switchedAt secondaryAt) (i : Nat) (before : TracePoint) :
    t.stepBefore i before = if switchedAt = i then 0 else before.step := by
  have hlt : switchedAt < t.points.length := Nat.lt_of_le_of_lt h.second.1.1 (by rw [← h.last]; omega)
  have hsome : t.points.findIdx? (·.phase = .secondary) = some switchedAt := by
    refine List.findIdx?_eq_some_iff_getElem.2 ⟨hlt, ?_, ?_⟩
    · simp [h.phase switchedAt _ (List.getElem?_eq_getElem hlt)]
    · intro j hj
      simp [h.phase j _ (List.getElem?_eq_getElem (Nat.lt_trans hj hlt)), hj]
  rw [Trace.stepBefore, hsome]
  simp only [Option.some.injEq]

/-! ## Replay -/

namespace Simulator

variable {s : Simulator} {t : Trace} {curve : Curve} {climbed observed : List Observation}
  {state final : ControlState} {i : Nat}

/-- An iteration between two neighbouring observations is a replay. -/
theorem replays_of_iterate (phase : Phase) (before : Observation) {here : Observation} {iteration : Nat}
    {next : ControlState} {decision : Decision} (hpoints : t.points = observed.map (·.point))
    (hbefore : observed[i - 1]? = some before) (hhere : observed[i]? = some here)
    (hcurve : s.curveOf phase = some curve)
    (hstep : s.controller.iterate curve ⟨before.point.ratio, t.stepBefore i before.point,
      before.point.bandwidth⟩ = .ok (next, decision))
    (hrecord : here = .record iteration phase next (some decision)) : s.Replays t i := by
  subst hrecord
  obtain ⟨hget, hadvance⟩ := Controller.iterate_ok hstep
  refine ⟨before.point, .record iteration phase next (some decision), curve, decision, ?_, ?_, hcurve,
    hget, hadvance, rfl⟩
  · rw [hpoints, List.getElem?_map, hbefore]
    rfl
  · rw [hpoints, List.getElem?_map, hhere]
    rfl

theorem replays_first_phase {outcome : Except ControlFault ControlState}
    (hclimb : Climbs s.controller s.primary .primary 1 s.initial climbed outcome)
    (hpoints : t.points = observed.map (·.point))
    (hsame : ∀ k, k ≤ climbed.length → observed[k]? = (s.first :: climbed)[k]?)
    (hpos : 1 ≤ i) (hi : i ≤ climbed.length)
    (hstep : ∀ before, t.stepBefore i before = before.step) : s.Replays t i := by
  obtain ⟨k, rfl⟩ : ∃ k, i = k + 1 := ⟨i - 1, by omega⟩
  obtain ⟨before, hbefore⟩ : ∃ before, (s.first :: climbed)[k]? = some before :=
    ⟨_, List.getElem?_eq_getElem (by rw [List.length_cons]; omega)⟩
  obtain ⟨here, hhere⟩ : ∃ here, climbed[k]? = some here := ⟨_, List.getElem?_eq_getElem (by omega)⟩
  obtain ⟨next, decision, hiterate, hrecord⟩ := hclimb.link s.first rfl hbefore hhere
  refine replays_of_iterate .primary before hpoints ?_ ?_ rfl ?_ hrecord
  · rw [Nat.add_sub_cancel, hsame k (by omega), hbefore]
  · rw [hsame (k + 1) hi, List.getElem?_cons_succ, hhere]
  · rw [hstep]
    exact hiterate

/-- The first point of the second phase follows the last one before it at rest, the others follow
those before them as they are. -/
theorem replays_second_phase {outcome : Except ControlFault ControlState}
    (hsome : s.secondary = some curve)
    (hclimb : Climbs s.controller s.primary .primary 1 s.initial climbed (.ok state))
    (hsecond : Climbs s.controller curve .secondary (s.beforeSwitch climbed state).length state.atRest
      observed outcome)
    (hpoints : t.points = (s.beforeSwitch climbed state ++ observed).map (·.point))
    (hi : (s.beforeSwitch climbed state).length ≤ i)
    (hlt : i < (s.beforeSwitch climbed state).length + observed.length)
    (hstep : ∀ before, t.stepBefore i before =
      if (s.beforeSwitch climbed state).length = i then 0 else before.step) : s.Replays t i := by
  obtain ⟨k, rfl⟩ := Nat.exists_eq_add_of_le hi
  obtain ⟨front, start, hfront, hstart⟩ := exists_last_beforeSwitch hclimb
  have hlen : (s.beforeSwitch climbed state).length = front.length + 1 := by
    rw [hfront, List.length_append, List.length_singleton]
  obtain ⟨here, hhere⟩ : ∃ here, observed[k]? = some here := ⟨_, List.getElem?_eq_getElem (by omega)⟩
  have hposition : (s.beforeSwitch climbed state ++ observed)[
      (s.beforeSwitch climbed state).length + k]? = some here := by
    rw [List.getElem?_append_right (by omega), Nat.add_sub_cancel_left, hhere]
  cases k with
  | zero =>
    obtain ⟨next, decision, hiterate, hrecord⟩ := hsecond.link
      (.record 0 .primary state.atRest none) rfl rfl hhere
    refine replays_of_iterate .secondary start hpoints ?_ hposition hsome ?_ hrecord
    · rw [hlen, Nat.add_zero, Nat.add_sub_cancel, hfront]
      simp
    · rw [hstep, if_pos (Nat.add_zero _).symm]
      change s.controller.iterate curve state.atRest = _ at hiterate
      rw [← hstart] at hiterate
      exact hiterate
  | succ k =>
    obtain ⟨before, hbefore⟩ : ∃ before, observed[k]? = some before :=
      ⟨_, List.getElem?_eq_getElem (by omega)⟩
    obtain ⟨next, decision, hiterate, hrecord⟩ := hsecond.link
      (.record 0 .primary state.atRest none) rfl (k := k + 1) hbefore hhere
    refine replays_of_iterate .secondary before hpoints ?_ hposition hsome ?_ hrecord
    · rw [← Nat.add_assoc, Nat.add_sub_cancel, List.getElem?_append_right (by omega),
        Nat.add_sub_cancel_left, hbefore]
    · rw [hstep, if_neg (by omega)]
      exact hiterate

/-! ## The whole trace -/

/-- Every point with a rule replays the law. -/
def ReplaysAll (s : Simulator) (t : Trace) : Prop :=
  ∀ (i : Nat) (here : TracePoint), 1 ≤ i → t.points[i]? = some here → here.rule ≠ none → s.Replays t i

theorem Course.replaysAll (h : s.Course observed (.ok t)) : s.ReplaysAll t := by
  intro i here hpos hhere hrule
  have hlt : i < t.points.length := (List.getElem?_eq_some_iff.1 hhere).1
  cases h with
  | @single climbed state _ hclimb =>
    have hsingle := single_singlePhase hclimb
    rw [← hsingle.last] at hlt
    exact replays_first_phase hclimb rfl (fun _ _ => rfl) hpos (Nat.le_of_lt_succ hlt)
      (hsingle.stepBefore i)
  | @double curve climbed state observed final hsome hclimb hsecond =>
    have htwo := double_twoPhases hclimb hsecond
    have hstep := htwo.stepBefore i
    have hlen := s.length_beforeSwitch climbed state
    have hnotHeld := mt (htwo.rule i here hhere).2 hrule
    rcases Nat.lt_or_ge climbed.length i with hlo | hle
    · have hhi : (s.beforeSwitch climbed state).length ≤ i := by omega
      have hcount := htwo.last
      exact replays_second_phase hsome hclimb hsecond rfl hhi (by omega) hstep
    · refine replays_first_phase hclimb rfl (fun k hk => get_of_le hk) hpos hle ?_
      intro before
      rw [hstep, if_neg (by omega)]

/-! ## Traces that replay alike -/

/-- The points after `lo` up to `hi`, all of one phase and up to the first repeated ratio, replay the
law; `start` gives the steps that it goes on from. -/
structure Stretch (s : Simulator) (t : Trace) (phase : Phase) (start : Nat → TracePoint → Int)
    (lo hi : Nat) : Prop where
  point : ∀ (i : Nat) (p : TracePoint), lo < i → i ≤ hi → t.points[i]? = some p →
    p.iteration = i ∧ p.phase = phase
  replays : ∀ i, lo < i → i ≤ hi → s.Replays t i
  step : ∀ i before, lo < i → i ≤ hi → t.stepBefore i before = start i before
  last : IsLeast {k | lo + 1 ≤ k ∧ RepeatsAt t.points k} hi

section
variable {t' : Trace} {phase : Phase} {start : Nat → TracePoint → Int} {lo hi hi' : Nat}

/-- The point before determines the next one. -/
theorem Stretch.point_eq (h : s.Stretch t phase start lo hi) (h' : s.Stretch t' phase start lo hi')
    (hlo : lo < i) (hhi : i ≤ hi) (hhi' : i ≤ hi') (heq : t'.points[i - 1]? = t.points[i - 1]?) :
    t'.points[i]? = t.points[i]? := by
  obtain ⟨before, here, curve, decision, hb, hh, hcurve, hget, hadvance, hrule⟩ :=
    h.replays i hlo hhi
  obtain ⟨before', here', curve', decision', hb', hh', hcurve', hget', hadvance', hrule'⟩ :=
    h'.replays i hlo hhi'
  obtain ⟨hiteration, hphase⟩ := h.point i here hlo hhi hh
  obtain ⟨hiteration', hphase'⟩ := h'.point i here' hlo hhi' hh'
  obtain rfl : before' = before := by
    rw [heq, hb] at hb'
    exact (Option.some.inj hb').symm
  obtain rfl : curve' = curve := by
    rw [hphase', ← hphase, hcurve] at hcurve'
    exact (Option.some.inj hcurve').symm
  have hbandwidth : here'.bandwidth = here.bandwidth := by
    rw [hget] at hget'
    exact (Except.ok.inj hget').symm
  rw [h'.step i before' hlo hhi', ← h.step i before' hlo hhi, hbandwidth, hadvance, Except.ok.injEq,
    Prod.mk.injEq, ControlState.mk.injEq] at hadvance'
  obtain ⟨⟨hratio, hstep, -⟩, rfl⟩ := hadvance'
  have hsame : here' = here := by
    rw [← hrule] at hrule'
    exact TracePoint.ext (hiteration'.trans hiteration.symm) (hphase'.trans hphase.symm) hratio.symm
      hstep.symm hbandwidth hrule'
  rw [hh, hh', hsame]

/-- Of two stretches that agree as far as both go, one does not go beyond the other: the ratio repeats
in both alike. -/
theorem end_le (h : IsLeast {k | lo + 1 ≤ k ∧ RepeatsAt t.points k} hi)
    (h' : IsLeast {k | lo + 1 ≤ k ∧ RepeatsAt t'.points k} hi')
    (hagree : ∀ i, lo ≤ i → i ≤ hi → i ≤ hi' → t'.points[i]? = t.points[i]?) : hi' ≤ hi := by
  by_contra hlt
  obtain ⟨hpos, before, here, hbefore, hhere, hratio⟩ := h.1
  refine hlt (h'.2 ⟨hpos, before, here, ?_, ?_, hratio⟩)
  · rw [hagree _ (by omega) (by omega) (by omega), hbefore]
  · rw [hagree _ (by omega) le_rfl (by omega), hhere]

/-- Stretches from the same point agree, and end alike. -/
theorem Stretch.unique (h : s.Stretch t phase start lo hi) (h' : s.Stretch t' phase start lo hi')
    (heq : t'.points[lo]? = t.points[lo]?) :
    hi' = hi ∧ ∀ i, lo ≤ i → i ≤ hi → t'.points[i]? = t.points[i]? := by
  have hagree (i : Nat) (hlo : lo ≤ i) (hhi : i ≤ hi) (hhi' : i ≤ hi') :
      t'.points[i]? = t.points[i]? := by
    induction i, hlo using Nat.le_induction with
    | base => exact heq
    | succ i hlo ih =>
      exact h.point_eq h' (Nat.lt_succ_of_le hlo) hhi hhi' (ih (by omega) (by omega))
  have hle := end_le h.last h'.last hagree
  have hge := end_le h'.last h.last fun i hlo hhi' hhi => (hagree i hlo hhi hhi').symm
  obtain rfl : hi' = hi := le_antisymm hle hge
  exact ⟨rfl, fun i hlo hhi => hagree i hlo hhi hhi⟩

end

theorem single_stretch {seen : List Observation} {primaryAt : Nat} (h : t.Shape s seen primaryAt)
    (hsingle : t.SinglePhase primaryAt) (hreplays : s.ReplaysAll t) :
    s.Stretch t .primary (fun _ before => before.step) 0 primaryAt where
  point i p _ _ hp := ⟨h.iteration i p hp, hsingle.phase p (List.mem_of_getElem? hp)⟩
  replays i hlo hhi := by
    have hlast := hsingle.last
    obtain ⟨p, hp⟩ : ∃ p, t.points[i]? = some p := ⟨_, List.getElem?_eq_getElem (by omega)⟩
    exact hreplays i p hlo hp (mt (hsingle.rule i p hp).1 (by omega))
  step i before _ _ := hsingle.stepBefore i before
  last := h.first

section
variable {seen : List Observation} {primaryAt hold secondaryAt : Nat}
  (h : t.Shape s seen primaryAt) (htwo : t.TwoPhases primaryAt (primaryAt + 1 + hold) secondaryAt)
  (hreplays : s.ReplaysAll t)
include h htwo hreplays

theorem first_stretch : s.Stretch t .primary (fun _ before => before.step) 0 primaryAt where
  point i p _ hhi hp :=
    ⟨h.iteration i p hp, by rw [htwo.phase i p hp, if_pos (by omega)]⟩
  replays i hlo hhi := by
    have hlast := htwo.last
    have hswitch := htwo.second.1.1
    obtain ⟨p, hp⟩ : ∃ p, t.points[i]? = some p := ⟨_, List.getElem?_eq_getElem (by omega)⟩
    exact hreplays i p hlo hp (mt (htwo.rule i p hp).1 (by omega))
  step i before _ _ := by rw [htwo.stepBefore, if_neg (by omega)]
  last := h.first

theorem second_stretch : s.Stretch t .secondary
    (fun i before => if primaryAt + 1 + hold = i then 0 else before.step) (primaryAt + hold)
      secondaryAt where
  point i p hlo _ hp :=
    ⟨h.iteration i p hp, by rw [htwo.phase i p hp, if_neg (by omega)]⟩
  replays i hlo hhi := by
    have hlast := htwo.last
    obtain ⟨p, hp⟩ : ∃ p, t.points[i]? = some p := ⟨_, List.getElem?_eq_getElem (by omega)⟩
    exact hreplays i p (by omega) hp (mt (htwo.rule i p hp).1 (by omega))
  step i before _ _ := htwo.stepBefore i before
  last := by
    rw [Nat.add_right_comm]
    exact htwo.second

end

theorem points_eq {t' : Trace} {last : Nat} (hlast : last + 1 = t.points.length)
    (hlast' : last + 1 = t'.points.length) (hagree : ∀ i, i ≤ last → t'.points[i]? = t.points[i]?) :
    t'.points = t.points := by
  apply List.ext_getElem?
  intro i
  rcases Nat.lt_or_ge last i with hlt | hle
  · rw [List.getElem?_eq_none (by omega), List.getElem?_eq_none (by omega)]
  · exact hagree i hle

/-- Traces of two phases that agree up to the first convergence agree on the hold. -/
theorem held_eq {t' : Trace} {primaryAt switchedAt secondaryAt secondaryAt' : Nat}
    (h : t.TwoPhases primaryAt switchedAt secondaryAt)
    (h' : t'.TwoPhases primaryAt switchedAt secondaryAt')
    (hagree : ∀ i, 0 ≤ i → i ≤ primaryAt → t'.points[i]? = t.points[i]?) (hlt : i < switchedAt) :
    t'.points[i]? = t.points[i]? := by
  rcases Nat.lt_or_ge primaryAt i with hlo | hle
  · obtain ⟨c, hc, hheld⟩ := h.held
    obtain ⟨c', hc', hheld'⟩ := h'.held
    rw [hagree primaryAt (Nat.zero_le _) le_rfl, hc] at hc'
    cases hc'
    rw [hheld i hlo hlt, hheld' i hlo hlt]
  · exact hagree i (Nat.zero_le _) hle

/-- The shape of a run and the replay of the law leave nothing open: only one trace has both. -/
theorem eq_of_replays {seen seen' : List Observation} {primaryAt primaryAt' : Nat} {t' : Trace}
    (h : t.Shape s seen primaryAt) (h' : t'.Shape s seen' primaryAt')
    (hphases : t.Phases s primaryAt) (hphases' : t'.Phases s primaryAt')
    (hreplays : s.ReplaysAll t) (hreplays' : s.ReplaysAll t') : t' = t := by
  have hstart : t'.points[0]? = t.points[0]? := by rw [h.start, h'.start]
  unfold Trace.Phases at hphases hphases'
  cases hsecondary : s.secondary with
  | none =>
    rw [hsecondary] at hphases hphases'
    obtain ⟨rfl, hagree⟩ := (single_stretch h hphases hreplays).unique
      (single_stretch h' hphases' hreplays') hstart
    refine Trace.ext (points_eq hphases.last hphases'.last ?_) ?_ ?_ ?_
    · intro i hi
      exact hagree i (Nat.zero_le _) hi
    · rw [h.primary, h'.primary]
    · rw [hphases.switched, hphases'.switched]
    · rw [hphases.secondary, hphases'.secondary]
  | some curve =>
    rw [hsecondary] at hphases hphases'
    obtain ⟨secondaryAt, htwo⟩ := hphases
    obtain ⟨secondaryAt', htwo'⟩ := hphases'
    obtain ⟨rfl, hagree⟩ := (first_stretch h htwo hreplays).unique
      (first_stretch h' htwo' hreplays') hstart
    have hheld {i : Nat} := held_eq htwo htwo' hagree (i := i)
    obtain ⟨rfl, hagree'⟩ := (second_stretch h htwo hreplays).unique
      (second_stretch h' htwo' hreplays') (hheld (by omega))
    refine Trace.ext (points_eq htwo.last htwo'.last ?_) ?_ ?_ ?_
    · intro i hi
      rcases Nat.lt_or_ge i (primaryAt' + s.config.holdIterations) with hlt | hge
      · exact hheld (by omega)
      · exact hagree' i hge hi
    · rw [h.primary, h'.primary]
    · rw [htwo.switched, htwo'.switched]
    · rw [htwo.secondary, htwo'.secondary]

/-- A trace replays the control law: every point with a rule is what the law makes of the point
before it and of the curve of its phase, from rest where the second phase starts. So nothing else
determines a trace than the curves, the configuration (not its cap) and the first point. -/
theorem trace_replays (s : Simulator) {t : Trace} (h : s.run.result = .ok t) :
    (∀ (i : Nat) (here : TracePoint), 1 ≤ i → t.points[i]? = some here → here.rule ≠ none →
      s.Replays t i) ∧
    ∀ (s' : Simulator) (t' : Trace), s'.controller = s.controller → s'.primary = s.primary →
      s'.secondary = s.secondary → s'.config.holdIterations = s.config.holdIterations →
      s'.run.result = .ok t' → t'.points[0]? = t.points[0]? → t' = t := by
  obtain ⟨primaryAt, hshape, hphases⟩ := (course_of_ok h).shape
  have hreplays := (course_of_ok h).replaysAll
  refine ⟨hreplays, ?_⟩
  intro s' t' hcontroller hprimary hsecondary hhold h' hfirst
  obtain ⟨primaryAt', hshape', hphases'⟩ := (course_of_ok h').shape
  have hreplays' := (course_of_ok h').replaysAll
  rw [hshape.start, hshape'.start, Option.some.injEq, TracePoint.mk.injEq] at hfirst
  obtain ⟨-, -, hratio, -, hbandwidth, -⟩ := hfirst
  generalize s'.run.observed = seen' at hshape'
  -- the cap is all that is left of `s'`, and neither the shape nor the replay knows it
  rw [eq_withCap hcontroller hprimary hsecondary hhold hratio hbandwidth] at hshape' hphases' hreplays'
  exact eq_of_replays hshape hshape'.of_withCap hphases hphases' hreplays hreplays'

/-- The first point of the second phase follows a hold, and the last one a step of 4. -/
theorem trace_replays_rising :
    rising.Replays risingTrace 3 ∧ rising.Replays risingTrace 5 ∧
      (∀ t, (rising.withCap 6 (Nat.succ_pos 5)).run.result = .ok t →
        t.points[0]? = risingTrace.points[0]? → t = risingTrace) := by
  obtain ⟨hreplays, hunique⟩ := trace_replays rising rising_run
  exact ⟨hreplays 3 ⟨3, .secondary, 92, -8, 500.0, some .coldStart⟩ (by decide) rfl nofun,
    hreplays 5 ⟨5, .secondary, 96, 0, 496.0, some .improving⟩ (by decide) rfl nofun,
    fun t => hunique (rising.withCap 6 (Nat.succ_pos 5)) t rfl rfl rfl rfl⟩

end Simulator

end Interleave
