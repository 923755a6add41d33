import Interleave.Proofs.Log.Emission
import Interleave.Proofs.Simulation.Links

/-!
# The story of a run

Two parts of the program find out where a phase switches and where it converges: the simulator from
its own state, and the log by comparing an observation with the one before it. `Simulator.story` is the
log in the words of the simulator, and the log that compares says the same.

Results:
* `Simulator.switchIndex_eq_iff`: the phase changes at the first observation of the second phase only.
* `Simulator.narration_observed`: comparing neighbours finds the switch and the convergences.
* `Simulator.switchIndex_of_ok`: in a run that succeeds, the switch is the marker of the trace.
-/
namespace Interleave

/-- The event that tells an observation by itself. -/
def Observation.event (o : Observation) : RunEvent :=
  match o.decision with
  | some d => .stepped o.point d
  | none => .held o.point

theorem Observation.event_of_some {o : Observation} {d : Decision} (h : o.decision = some d) :
    o.event = .stepped o.point d := by
  rw [event, h]

theorem Observation.event_of_none {o : Observation} (h : o.decision = none) :
    o.event = .held o.point := by
  rw [event, h]

namespace Simulator

variable {s : Simulator} {before here : Observation} {j k : Nat}

/-- The index of the first observation of the second phase. -/
def switchIndex (s : Simulator) : Option Nat :=
  s.run.observed.findIdx? fun o => o.point.phase = .secondary

/-- What is told about observation number `i`: the switch before its own event, and the convergence
after it. -/
def told (s : Simulator) (i : Nat) (o : Observation) : List RunEvent :=
  (if s.switchIndex = some i then [.switched .primary .secondary i] else []) ++
    o.event :: if i ∈ s.convergences then [.converged o.point] else []

/-- What is told about all observations but the first. -/
def toldAll (s : Simulator) : List RunEvent :=
  (s.run.observed.tail.zipIdx 1).flatMap fun p => s.told p.2 p.1

/-- All that a log tells. -/
def story (s : Simulator) (duration : Nat) : List RunEvent :=
  .started s.runConfig :: (s.toldAll ++ [s.run.ending duration])

/-- All that is told, but for the start and the end, is told about an observation. -/
theorem mem_toldAll {event : RunEvent} : event ∈ s.toldAll ↔
    ∃ k o, s.run.observed[k + 1]? = some o ∧ event ∈ s.told (k + 1) o := by
  simp only [toldAll, List.mem_flatMap, Prod.exists, List.mk_mem_zipIdx_iff_le_and_getElem?_sub,
    List.getElem?_tail]
  constructor
  · rintro ⟨o, k, ⟨hk, ho⟩, hevent⟩
    obtain ⟨k, rfl⟩ : ∃ j, k = j + 1 := ⟨k - 1, by omega⟩
    exact ⟨k, o, ho, hevent⟩
  · rintro ⟨k, o, ho, hevent⟩
    exact ⟨o, k + 1, ⟨Nat.le_add_left 1 k, ho⟩, hevent⟩

/-- What holds of the start, of what is told about each observation and of the end holds of the whole
story. -/
theorem forall_mem_story {P : RunEvent → Prop} {duration : Nat} (hstart : P (.started s.runConfig))
    (htold : ∀ k o, s.run.observed[k]? = some o → P (.switched .primary .secondary k) ∧
      (∀ d ∈ o.decision, P (.stepped o.point d)) ∧ P (.held o.point) ∧ P (.converged o.point))
    (hending : P (s.run.ending duration)) : ∀ event ∈ s.story duration, P event := by
  intro event h
  simp only [story, List.mem_cons, List.mem_append, List.not_mem_nil, or_false] at h
  rcases h with rfl | h | rfl
  · exact hstart
  · obtain ⟨k, o, hk, h⟩ := mem_toldAll.1 h
    obtain ⟨hswitched, hstepped, hheld, hconverged⟩ := htold (k + 1) o hk
    rcases List.mem_append.1 h with h | h
    · split at h
      · rwa [List.mem_singleton.1 h]
      · cases h
    · rcases List.mem_cons.1 h with rfl | h
      · cases hdecision : o.decision with
        | some d =>
          rw [Observation.event_of_some hdecision]
          exact hstepped d hdecision
        | none =>
          rw [Observation.event_of_none hdecision]
          exact hheld
      · split at h
        · rwa [List.mem_singleton.1 h]
        · cases h
  · exact hending

/-! ## Switches -/

/-- The second phase is never left. -/
theorem Link.phase (h : s.Link k before here) (hsecond : before.point.phase = .secondary) :
    here.point.phase = .secondary := by
  cases h with
  | stepped _ hstays => exact hstays hsecond
  | held hfirst =>
    rw [hsecond] at hfirst
    cases hfirst

/-- An iteration that repeats the ratio is a convergence, and there are no others. -/
theorem Link.converged_iff (h : s.Link k before here) :
    k + 1 ∈ s.convergences ↔ here.decision.isSome ∧ before.point.ratio = here.point.ratio := by
  cases h with
  | stepped _ _ _ _ hconverged =>
    rw [← hconverged]
    exact ⟨fun h => ⟨rfl, h.symm⟩, fun h => h.2.symm⟩
  | held _ hquiet => exact iff_of_false hquiet fun h => nomatch h.1

/-- Before an observation of the first phase there are only others of the first phase. -/
theorem primary_of_le (hk : s.run.observed[k]? = some here) (hfirst : here.point.phase = .primary)
    (hj : s.run.observed[j]? = some before) (hle : j ≤ k) : before.point.phase = .primary := by
  induction k generalizing here with
  | zero =>
    obtain rfl : j = 0 := Nat.le_zero.1 hle
    rw [hk] at hj
    cases hj
    exact hfirst
  | succ k ih =>
    rcases Nat.lt_or_ge k j with hlast | hearlier
    · obtain rfl : j = k + 1 := by omega
      rw [hk] at hj
      cases hj
      exact hfirst
    · obtain ⟨o, ho⟩ := exists_before hk
      refine ih ho ?_ hearlier
      cases hphase : o.point.phase with
      | primary => rfl
      | secondary =>
        rw [(run_link ho hk).phase hphase] at hfirst
        cases hfirst

/-- The phase changes at the first observation of the second phase, and only there. -/
theorem switchIndex_eq_iff (hbefore : s.run.observed[k]? = some before)
    (hhere : s.run.observed[k + 1]? = some here) :
    s.switchIndex = some (k + 1) ↔
      before.point.phase = .primary ∧ here.point.phase = .secondary := by
  rw [switchIndex, List.findIdx?_eq_some_iff_getElem]
  obtain ⟨hlt, rfl⟩ := List.getElem?_eq_some_iff.1 hhere
  constructor
  · rintro ⟨_, hsecond, hearlier⟩
    obtain ⟨_, rfl⟩ := List.getElem?_eq_some_iff.1 hbefore
    refine ⟨?_, of_decide_eq_true hsecond⟩
    have hfirst := hearlier k (Nat.lt_succ_self k)
    cases hphase : (s.run.observed[k]).point.phase with
    | primary => rfl
    | secondary => simp [hphase] at hfirst
  · rintro ⟨hfirst, hsecond⟩
    refine ⟨hlt, decide_eq_true hsecond, ?_⟩
    intro j hj
    rw [primary_of_le hbefore hfirst (List.getElem?_eq_getElem (by omega)) (Nat.le_of_lt_succ hj)]
    decide

/-! ## Comparing neighbours -/

/-- Comparing the phases finds the switch. -/
theorem switch_events (hbefore : s.run.observed[k]? = some before)
    (hhere : s.run.observed[k + 1]? = some here) :
    (((some before.point).filter (·.phase ≠ here.point.phase)).map fun p =>
      RunEvent.switched p.phase here.point.phase here.point.iteration).toList =
      if s.switchIndex = some (k + 1) then [.switched .primary .secondary (k + 1)] else [] := by
  have hlink := run_link hbefore hhere
  have hswitch := switchIndex_eq_iff hbefore hhere
  rw [hlink.iteration]
  cases hb : before.point.phase with
  | primary =>
    cases hh : here.point.phase with
    | primary =>
      rw [if_neg (by rw [hswitch, hh]; exact fun h => nomatch h.2)]
      simp [hb]
    | secondary =>
      rw [if_pos (hswitch.2 ⟨hb, hh⟩)]
      simp [hb]
  | secondary =>
    rw [hlink.phase hb, if_neg (by rw [hswitch, hb]; exact fun h => nomatch h.1)]
    simp [hb]

/-- What comparing finds is what the simulator knows. -/
theorem events_eq_told (hbefore : s.run.observed[k]? = some before)
    (hhere : s.run.observed[k + 1]? = some here) :
    here.events (some before.point) = s.told (k + 1) here := by
  have hlink := run_link hbefore hhere
  have hconverged := hlink.converged_iff
  unfold Observation.events told
  dsimp only
  rw [switch_events hbefore hhere]
  congr 1
  cases hdecision : here.decision with
  | some d =>
    have hsame : (some before.point).any (·.ratio = here.point.ratio) = true ↔
        k + 1 ∈ s.convergences := by
      rw [hconverged, hdecision, Option.any_some, decide_eq_true_iff]
      simp
    rw [Observation.event_of_some hdecision]
    dsimp only
    by_cases hmem : k + 1 ∈ s.convergences
    · rw [if_pos hmem, if_pos (hsame.2 hmem)]
    · rw [if_neg hmem, if_neg (mt hsame.1 hmem)]
  | none =>
    have hquiet : k + 1 ∉ s.convergences := by
      rw [hconverged, hdecision]
      exact fun h => nomatch h.1
    rw [Observation.event_of_none hdecision]
    dsimp only
    rw [if_neg hquiet, hlink.iteration, if_neg (Nat.succ_ne_zero k)]

/-- The story that follows an observation. -/
theorem narration_from (observed : List Observation)
    (hrun : ∀ j, (before :: observed)[j]? = s.run.observed[k + j]?) :
    narration (some before.point) observed =
      (observed.zipIdx (k + 1)).flatMap fun p => s.told p.2 p.1 := by
  induction observed generalizing before k with
  | nil => rfl
  | cons o observed ih =>
    have hevents := events_eq_told (hrun 0).symm (hrun 1).symm
    have hnext : ∀ j, (o :: observed)[j]? = s.run.observed[k + 1 + j]? := by
      intro j
      rw [← Nat.add_right_comm, Nat.add_assoc, ← hrun (j + 1)]
      rfl
    rw [narration, hevents, ih hnext]
    rfl

/-- Comparing each observation with the one before it tells what the simulator knows. -/
theorem narration_observed (s : Simulator) : narration none s.run.observed = s.toldAll := by
  obtain ⟨observed, hobserved⟩ := s.exists_observed
  have hrun : ∀ j, (s.first :: observed)[j]? = s.run.observed[0 + j]? := by
    intro j
    rw [hobserved, Nat.zero_add]
  rw [toldAll, hobserved, narration, narration_from observed hrun]
  rfl

/-- The log has the whole story to tell. -/
theorem events_eq_story (s : Simulator) (duration : Nat) :
    s.run.events s.runConfig duration = s.story duration := by
  rw [Run.events, narration_observed, story]

/-! ## Runs that succeed -/

/-- In a run that succeeds, the switch is the marker of the trace. -/
theorem switchIndex_of_ok {t : Trace} (h : s.run.result = .ok t) : s.switchIndex = t.switchedAt := by
  obtain ⟨primaryAt, hshape, hphases⟩ := (course_of_ok h).shape
  have hpoint {k : Nat} (hk : k < s.run.observed.length) :
      t.points[k]? = some (s.run.observed[k]).point := by
    rw [hshape.reported, List.getElem?_map, List.getElem?_eq_getElem hk]
    rfl
  unfold Trace.Phases at hphases
  cases hsecondary : s.secondary with
  | none =>
    rw [hsecondary] at hphases
    rw [hphases.switched, switchIndex, List.findIdx?_eq_none_iff]
    intro o ho
    have hphase := hphases.phase o.point (by rw [hshape.reported]; exact List.mem_map_of_mem ho)
    rw [hphase]
    rfl
  | some curve =>
    rw [hsecondary] at hphases
    obtain ⟨secondaryAt, htwo⟩ := hphases
    have hlength : s.run.observed.length = t.points.length := by rw [hshape.reported, List.length_map]
    have hle : primaryAt + 1 + s.config.holdIterations ≤ secondaryAt := htwo.second.1.1
    have hlast := htwo.last
    rw [htwo.switched, switchIndex, List.findIdx?_eq_some_iff_getElem]
    refine ⟨by omega, ?_, ?_⟩
    · rw [htwo.phase _ _ (hpoint (by omega)), if_neg (Nat.lt_irrefl _)]
      rfl
    · intro j hj
      rw [htwo.phase _ _ (hpoint (by omega)), if_pos hj]
      decide

/-- The markers of a trace are places in it. -/
theorem markers_lt {t : Trace} (h : s.run.result = .ok t) :
    (∀ i ∈ t.primaryConvergedAt, i < t.points.length) ∧
      (∀ i ∈ t.switchedAt, i < t.points.length) ∧
      ∀ i ∈ t.secondaryConvergedAt, i < t.points.length := by
  have hpoints : t.points = s.run.observed.map (·.point) := (course_of_ok h).points_eq
  obtain ⟨primaryAt, hshape, hphases⟩ := (course_of_ok h).shape
  refine ⟨?_, ?_, ?_⟩
  · rw [hshape.primary]
    rintro i ⟨⟩
    obtain ⟨-, before, here, -, hhere, -⟩ := hshape.first.1
    exact (List.getElem?_eq_some_iff.1 hhere).1
  · rw [← switchIndex_of_ok h, hpoints, List.length_map]
    intro i hi
    exact (List.findIdx?_eq_some_iff_getElem.1 hi).1
  · unfold Trace.Phases at hphases
    cases hsecondary : s.secondary with
    | none =>
      rw [hsecondary] at hphases
      rw [hphases.secondary]
      nofun
    | some curve =>
      rw [hsecondary] at hphases
      obtain ⟨secondaryAt, htwo⟩ := hphases
      rw [htwo.secondary]
      rintro i ⟨⟩
      exact Nat.lt_of_succ_le htwo.last.le

end Simulator

end Interleave
