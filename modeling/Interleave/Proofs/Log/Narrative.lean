import Interleave.Proofs.Log.Lines
import Interleave.Proofs.Log.Story
import Interleave.Proofs.Simulation.Observed
import Mathlib.Data.List.Infix

/-!
# The log tells the run

With a fresh emitter whose sink takes every line, the log of a run is its story, line by line, and the
run ends as it would without a log. What the story says about the run can be read off the entries: the
points after the first, where the phases converge and switch, and how the run ends. And the entries can
be read off the lines.

Results:
* `Simulator.points_toldAll`, `Simulator.convergences_toldAll`, `Simulator.switch_toldAll`: what the
  story says about points, convergences and the switch.
* `log_narrates`: the log of a run is its story, and tells what the run is.
-/
namespace Interleave

/-! ## Reading entries and events -/

/-- The point that an entry tells by itself, as that of a controller step and that of a hold do. -/
def LogEntry.point? (e : LogEntry) : Option TracePoint :=
  if e.event = stepEvent ∨ e.event = "hold" then do
    pure
      { iteration := ← e.iteration
        phase := ← e.phase
        ratio := ← e.ratio
        step := ← e.step
        bandwidth := ← e.bandwidth
        rule := e.rule.bind Rule.ofName? }
  else none

namespace RunEvent

/-- The point that an event tells by itself. -/
def point? : RunEvent → Option TracePoint
  | stepped p d => some { p with rule := some d.rule }
  | held p => some { p with rule := none }
  | _ => none

/-- The iteration of a convergence. -/
def convergedAt? : RunEvent → Option Nat
  | converged p => some p.iteration
  | _ => none

/-- The phases of a switch and its iteration. -/
def switch? : RunEvent → Option (Phase × Phase × Nat)
  | switched a b i => some (a, b, i)
  | _ => none

theorem point?_entry (event : RunEvent) (e : Emitter) : (event.entry e).point? = event.point? := by
  cases event with
  | stepped p d =>
    have hrule : (some d.rule.name).bind Rule.ofName? = some d.rule := Rule.ofName?_name d.rule
    change some _ = some _
    rw [← hrule]
    rfl
  | _ => rfl

end RunEvent

namespace Simulator

variable {s : Simulator} {here : Observation} {k : Nat}

/-! ## What the story says -/

/-- What the start and the end say nothing about is read off the other events. -/
theorem filterMap_story {β : Type} {g : RunEvent → Option β} (duration : Nat)
    (hstart : g (.started s.runConfig) = none) (hending : g (s.run.ending duration) = none) :
    (s.story duration).filterMap g = s.toldAll.filterMap g := by
  rw [story, List.filterMap_cons, hstart, List.filterMap_append, List.filterMap_cons, hending]
  exact List.append_nil _

/-- What is read off the events is read off what is told about each observation. -/
theorem filterMap_toldAll {β : Type} {g : RunEvent → Option β} {f : Nat → Observation → List β}
    (h : ∀ k o, s.run.observed[k + 1]? = some o → (s.told (k + 1) o).filterMap g = f (k + 1) o) :
    s.toldAll.filterMap g = (s.run.observed.tail.zipIdx 1).flatMap fun p => f p.2 p.1 := by
  rw [toldAll, List.filterMap_flatMap]
  apply List.flatMap_congr
  rintro ⟨o, k⟩ hp
  obtain ⟨hk, ho⟩ := List.mk_mem_zipIdx_iff_le_and_getElem?_sub.1 hp
  obtain ⟨k, rfl⟩ : ∃ j, k = j + 1 := ⟨k - 1, by omega⟩
  rw [List.getElem?_tail] at ho
  exact h k o ho

/-- What is told about an observation is its own event, and the switch and the convergence where they
are. -/
theorem filterMap_told {β : Type} (g : RunEvent → Option β) (i : Nat) (o : Observation) :
    (s.told i o).filterMap g =
      (if s.switchIndex = some i then (g (.switched .primary .secondary i)).toList else []) ++
        ((g o.event).toList ++ if i ∈ s.convergences then (g (.converged o.point)).toList else []) := by
  have hcons (event : RunEvent) (events : List RunEvent) :
      (event :: events).filterMap g = (g event).toList ++ events.filterMap g := by
    cases hg : g event <;> simp [hg]
  rw [told, List.filterMap_append, hcons, apply_ite (List.filterMap g), apply_ite (List.filterMap g),
    hcons, hcons, List.filterMap_nil, List.append_nil, List.append_nil]

/-- Every point but the first is told by itself, once. -/
theorem points_toldAll (s : Simulator) :
    s.toldAll.filterMap RunEvent.point? = s.run.observed.tail.map (·.point) := by
  have hpoint : ∀ k o, s.run.observed[k + 1]? = some o →
      (s.told (k + 1) o).filterMap RunEvent.point? = [o.point] := by
    intro k o ho
    have hrule := observed_rule ho
    have hown : RunEvent.point? o.event = some o.point := by
      cases hdecision : o.decision with
      | some d =>
        rw [hdecision] at hrule
        rw [Observation.event_of_some hdecision]
        exact congrArg (fun rule => some { o.point with rule }) hrule.symm
      | none =>
        rw [hdecision] at hrule
        rw [Observation.event_of_none hdecision]
        exact congrArg (fun rule => some { o.point with rule }) hrule.symm
    rw [filterMap_told, hown]
    simp [RunEvent.point?]
  rw [filterMap_toldAll (f := fun _ o => [o.point]) hpoint]
  have hfirst := congrArg (List.map (·.point)) (List.zipIdx_map_fst 1 s.run.observed.tail)
  rw [List.map_map] at hfirst
  rw [← hfirst]
  exact List.flatMap_pure_eq_map _ _

/-- Marks in increasing order are found by going through all numbers. -/
theorem flatMap_marked {α β : Type} (xs : List α) (f : Nat → β) {marks : List Nat}
    (hsorted : marks.Pairwise (· < ·)) (hrange : ∀ i ∈ marks, 1 ≤ i ∧ i ≤ xs.length) :
    ((xs.zipIdx 1).flatMap fun p => if p.2 ∈ marks then [f p.2] else []) = marks.map f := by
  have hfilter (l : List Nat) : (l.flatMap fun i => if i ∈ marks then [f i] else []) =
      (l.filter (· ∈ marks)).map f := by
    induction l with
    | nil => rfl
    | cons i l ih =>
      rw [List.flatMap_cons, ih, List.filter_cons]
      by_cases hi : i ∈ marks <;> simp [hi]
  have hnumbers := (List.pairwise_lt_range' (s := 1) (n := xs.length)).filter (· ∈ marks)
  have hmarks : (List.range' 1 xs.length).filter (· ∈ marks) = marks := by
    refine List.Perm.eq_of_pairwise (fun a b _ _ hab hba => ?_) hnumbers hsorted ?_
    · exact absurd hab (Nat.lt_asymm hba)
    apply (List.perm_ext_iff_of_nodup (hnumbers.imp Nat.ne_of_lt) (hsorted.imp Nat.ne_of_lt)).2
    intro i
    rw [List.mem_filter, List.mem_range'_1, decide_eq_true_iff]
    constructor
    · exact fun h => h.2
    · intro h
      have := hrange i h
      exact ⟨by omega, h⟩
  rw [← List.flatMap_map Prod.snd fun i => if i ∈ marks then [f i] else [], List.zipIdx_map_snd, hfilter,
    hmarks]

theorem convergences_ordered {t : Trace} (h : s.run.result = .ok t) :
    s.convergences.Pairwise (· < ·) ∧ ∀ i ∈ s.convergences, 1 ≤ i ∧ i < s.run.observed.length := by
  obtain ⟨primaryAt, hshape, hphases⟩ := (course_of_ok h).shape
  obtain ⟨hprimary, -, hsecondary⟩ := markers_lt h
  have hfirst : 1 ≤ primaryAt := hshape.first.1.1
  have hlast := hprimary primaryAt hshape.primary
  rw [hshape.reported, List.length_map] at hlast hsecondary
  rw [convergences_of_ok h, hshape.primary]
  unfold Trace.Phases at hphases
  cases hcurve : s.secondary with
  | none =>
    rw [hcurve] at hphases
    rw [hphases.secondary]
    exact ⟨List.pairwise_singleton _ _, List.forall_mem_singleton.2 ⟨hfirst, hlast⟩⟩
  | some curve =>
    rw [hcurve] at hphases
    obtain ⟨secondaryAt, htwo⟩ := hphases
    have hswitch : primaryAt + 1 + s.config.holdIterations ≤ secondaryAt := htwo.second.1.1
    have hend := hsecondary secondaryAt htwo.secondary
    rw [htwo.secondary]
    exact ⟨List.pairwise_pair.2 (by omega), List.forall_mem_cons.2
      ⟨⟨hfirst, hlast⟩, List.forall_mem_singleton.2 ⟨by omega, hend⟩⟩⟩

/-- The told convergences of a run that succeeds are those of the simulator. -/
theorem convergences_toldAll {t : Trace} (h : s.run.result = .ok t) :
    s.toldAll.filterMap RunEvent.convergedAt? =
      t.primaryConvergedAt.toList ++ t.secondaryConvergedAt.toList := by
  have htold : ∀ k o, s.run.observed[k + 1]? = some o →
      (s.told (k + 1) o).filterMap RunEvent.convergedAt? =
        if k + 1 ∈ s.convergences then [k + 1] else [] := by
    intro k o ho
    have hiteration : RunEvent.convergedAt? (.converged o.point) = some (k + 1) :=
      congrArg some (observed_finite ho).1
    have hown : RunEvent.convergedAt? o.event = none := by
      unfold Observation.event
      split <;> rfl
    rw [filterMap_told, hown, hiteration]
    simp [RunEvent.convergedAt?]
  obtain ⟨hsorted, hrange⟩ := convergences_ordered h
  have hrange' : ∀ i ∈ s.convergences, 1 ≤ i ∧ i ≤ s.run.observed.tail.length := by
    intro i hi
    have hlt := hrange i hi
    rw [List.length_tail]
    omega
  rw [filterMap_toldAll (f := fun k _ => if k ∈ s.convergences then [k] else []) htold,
    flatMap_marked _ (fun k => k) hsorted hrange', List.map_id', convergences_of_ok h]

/-- The switch is told once, if there is one. -/
theorem switch_toldAll (s : Simulator) : s.toldAll.filterMap RunEvent.switch? =
    s.switchIndex.toList.map fun i => (.primary, .secondary, i) := by
  have htold : ∀ k o, s.run.observed[k + 1]? = some o → (s.told (k + 1) o).filterMap RunEvent.switch? =
      if k + 1 ∈ s.switchIndex.toList then [(.primary, .secondary, k + 1)] else [] := by
    intro k o _
    have hown : RunEvent.switch? o.event = none := by
      unfold Observation.event
      split <;> rfl
    rw [filterMap_told, hown]
    simp [RunEvent.switch?]
  have hrange : ∀ i ∈ s.switchIndex.toList, 1 ≤ i ∧ i ≤ s.run.observed.tail.length := by
    intro i hi
    obtain ⟨hlt, hsecond, -⟩ := List.findIdx?_eq_some_iff_getElem.1 (Option.mem_toList.1 hi)
    have hpos : i ≠ 0 := by
      rintro rfl
      have hhead := s.run_head
      rw [List.getElem?_eq_getElem hlt, Option.some.injEq] at hhead
      rw [hhead] at hsecond
      cases hsecond
    rw [List.length_tail]
    omega
  have hsorted : s.switchIndex.toList.Pairwise (· < ·) := by
    cases s.switchIndex <;> simp
  rw [filterMap_toldAll (f := fun k _ => if k ∈ s.switchIndex.toList then
    [(.primary, .secondary, k)] else []) htold]
  exact flatMap_marked _ (fun i => (Phase.primary, Phase.secondary, i)) hsorted hrange

/-! ## What the entries say -/

theorem allFinite_config (c : RunConfig) : c.toJson.AllFinite := by
  apply Json.allFinite_object
  simp only [List.forall_mem_cons, List.not_mem_nil, false_implies, implies_true, and_true]
  constructor
  · apply Json.allFinite_object
    simp only [List.forall_mem_cons, List.not_mem_nil, false_implies, implies_true, and_true]
    exact ⟨Json.allFinite_int _, Json.allFinite_int _, Json.allFinite_real _, Json.allFinite_string _⟩
  · apply Json.allFinite_object
    simp only [List.forall_mem_cons, List.not_mem_nil, false_implies, implies_true, and_true]
    exact ⟨Json.allFinite_nat _, Json.allFinite_real _, Json.allFinite_nat _, Json.allFinite_nat _⟩

theorem allFinite_decisionDetails (d : Decision) : (LogEntry.decisionDetails d).AllFinite := by
  apply Json.allFinite_object
  simp only [List.forall_mem_cons, List.not_mem_nil, false_implies, implies_true, and_true]
  exact ⟨Json.allFinite_int _, Json.allFinite_bool _, Json.allFinite_bool _, Json.allFinite_bool _⟩

theorem allFinite_traceDetails (t : Trace) : (RunEvent.traceDetails t).AllFinite := by
  apply Json.allFinite_object
  simp only [List.forall_mem_cons, List.not_mem_nil, false_implies, implies_true, and_true]
  exact ⟨Json.allFinite_nat _, Json.allFinite_orNull Json.allFinite_nat _,
    Json.allFinite_orNull Json.allFinite_nat _, Json.allFinite_orNull Json.allFinite_nat _,
    Json.allFinite_orNull Json.allFinite_nat _⟩

/-- Every entry of a run can be told by its line. -/
theorem story_finite (s : Simulator) (duration : Nat) :
    ∀ event ∈ s.story duration, ∀ e, (event.entry e).Finite := by
  have hdetails {details : Json} (h : details.AllFinite) :
      ∀ d ∈ some details.canonical, d.AllFinite := by
    rintro d ⟨⟩
    exact h.canonical
  refine forall_mem_story ?_ ?_ ?_
  · exact fun e => ⟨nofun, hdetails (allFinite_config s.runConfig)⟩
  · intro k o hk
    have hbandwidth : ∀ x ∈ some o.point.bandwidth, x.isFinite = true := by
      rintro x ⟨⟩
      exact (observed_finite hk).2
    refine ⟨fun e => ⟨nofun, hdetails ?_⟩,
      fun d _ e => ⟨hbandwidth, hdetails (allFinite_decisionDetails d)⟩,
      fun e => ⟨hbandwidth, nofun⟩, fun e => ⟨hbandwidth, nofun⟩⟩
    apply Json.allFinite_object
    simp only [List.forall_mem_cons, List.not_mem_nil, false_implies, implies_true, and_true]
    exact ⟨Json.allFinite_string _, Json.allFinite_nat _⟩
  · unfold Run.ending
    intro e
    cases s.run.result with
    | ok t => exact ⟨nofun, hdetails (allFinite_traceDetails t)⟩
    | error fault =>
      refine ⟨nofun, hdetails ?_⟩
      exact Json.allFinite_object (List.forall_mem_singleton.2 (Json.allFinite_string _))

end Simulator

/-- What a log says about the trace of a run that succeeds. -/
structure Trace.ToldBy (t : Trace) (entries : List LogEntry) : Prop where
  points : entries.filterMap LogEntry.point? = t.points.tail
  converged : (entries.filter (·.event = "phase_converged")).map (·.iteration) =
    (t.primaryConvergedAt.toList ++ t.secondaryConvergedAt.toList).map some
  switched : (entries.filter (·.event = "phase_switch")).map (fun e => (e.phase, e.details)) =
    t.switchedAt.toList.map fun i =>
      (some .secondary, some (.object [("at", .nat i), ("from", .string "primary")]))

/-- What a log says about the end of a run. -/
def LogEntry.tellsEnd (last : LogEntry) : Except ControlFault Trace → Prop
  | .ok _ => last.event = "simulation_complete" ∧ last.outcome = some .pass
  | .error fault => last.event = "simulation_failed" ∧
    (last.outcome = some .timeout ↔ ∃ n, fault = .noConvergence n)

namespace Simulator

variable {s : Simulator}

theorem entries_tellsEnd (s : Simulator) (duration : Nat) (e : Emitter) :
    ∃ last, (e.entries (s.story duration)).getLast? = some last ∧ last.tellsEnd s.run.result := by
  have hlast : (s.story duration).getLast? = some (s.run.ending duration) := by
    rw [story, ← List.cons_append, List.getLast?_concat]
  rw [Emitter.entries, List.getLast?_mapIdx, hlast]
  refine ⟨_, rfl, ?_⟩
  unfold Run.ending
  cases s.run.result with
  | ok t => exact ⟨rfl, rfl⟩
  | error fault =>
    refine ⟨rfl, ?_⟩
    change some (RunEvent.outcomeOf fault) = some .timeout ↔ _
    cases fault <;> simp [RunEvent.outcomeOf]

/-- The entries of a story say what the trace is. -/
theorem toldBy_entries {t : Trace} (h : s.run.result = .ok t) (duration : Nat) (e : Emitter) :
    t.ToldBy (e.entries (s.story duration)) where
  points := by
    rw [Emitter.filterMap_entries RunEvent.point?_entry, filterMap_story duration rfl (by rw [Run.ending, h]; rfl),
      points_toldAll, (course_of_ok h).points_eq, List.map_tail]
  converged := by
    rw [← convergences_toldAll h, ← filterMap_story duration rfl (by rw [Run.ending, h]; rfl),
      ← List.filterMap_eq_map, List.filterMap_filter, List.map_filterMap]
    apply Emitter.filterMap_entries
    intro event e
    cases event <;> rfl
  switched := by
    let written (p : Phase × Phase × Nat) : Option Phase × Option Json :=
      (some p.2.1, some (.object [("at", .nat p.2.2), ("from", .string p.1.name)]))
    have htold := congrArg (List.map written) s.switch_toldAll
    rw [List.map_map, switchIndex_of_ok h, ← filterMap_story duration rfl
      (by rw [Run.ending, h]; rfl), List.map_filterMap] at htold
    refine Eq.trans ?_ htold
    rw [← List.filterMap_eq_map, List.filterMap_filter]
    apply Emitter.filterMap_entries
    intro event e
    cases event <;> rfl

end Simulator

/-- An emitter that has neither given out a trace id nor stored a line, and whose sink is open. -/
structure Emitter.Fresh (e : Emitter) : Prop where
  count : e.count = 0
  lines : e.sink.lines = #[]
  isOpen : e.sink.IsOpen

/-- With a fresh emitter, the log of a run is its story, each event with the number of its line, and the
run ends as it would without a log. The entries tell the points, the markers and the end of the run,
and they can be read off the lines, by one reader for all logs. -/
theorem log_narrates : ∃ read : String → LogEntry,
    ∀ (c : RunConfig) (primary : Curve) (secondary : Option Curve) (duration : Nat) (e : Emitter)
      (s : Simulator), Simulator.ofCurves c primary secondary = .ok s → e.Fresh →
      ∃ (after : Emitter) (entries : List LogEntry),
        (c.runLogged primary secondary duration).run.run e =
          (s.run.result.mapError Fault.control, after) ∧
        after.sink.lines.toList = entries.map LogEntry.line ∧
        after.sink.lines.toList.map read = entries ∧
        entries = (s.story duration).mapIdx (fun k event => event.entry (e.having k)) ∧
        (∀ k entry, entries[k]? = some entry →
          entry.traceId = Emitter.traceId e.runId e.component (k + 1)) ∧
        entries.filterMap LogEntry.point? = s.run.observed.tail.map (·.point) ∧
        (∃ last, entries.getLast? = some last ∧ last.tellsEnd s.run.result) ∧
        ∀ t, s.run.result = .ok t → t.ToldBy entries := by
  let blank : LogEntry := { timestamp := "", traceId := "", level := .info, event := "" }
  have : Nonempty LogEntry := ⟨blank⟩
  refine ⟨Function.invFunOn LogEntry.line {e | e.Finite}, ?_⟩
  intro c primary secondary duration e s hs hfresh
  obtain ⟨rfl, rfl, rfl⟩ := Simulator.of_ofCurves hs
  have hrun := s.run.log_open s.runConfig duration hfresh.isOpen
  rw [s.events_eq_story] at hrun
  have hlines : (e.wroteAll (s.story duration)).sink.lines.toList =
      (e.entries (s.story duration)).map LogEntry.line := by
    rw [Emitter.lines_wroteAll hfresh.isOpen, hfresh.lines]
    exact List.nil_append _
  have hentries : e.entries (s.story duration) =
      (s.story duration).mapIdx fun k event => event.entry (e.having k) := by
    unfold Emitter.entries
    simp only [hfresh.count, Nat.zero_add]
  refine ⟨_, e.entries (s.story duration), ?_, hlines, ?_, hentries, ?_, ?_,
    s.entries_tellsEnd duration e, fun t h => Simulator.toldBy_entries h duration e⟩
  · rw [RunConfig.runLogged, hs]
    exact hrun
  · rw [hlines, List.map_map]
    refine (List.map_congr_left ?_).trans (List.map_id _)
    intro entry hentry
    rw [Emitter.entries, List.mem_mapIdx] at hentry
    obtain ⟨k, hk, rfl⟩ := hentry
    exact LogEntry.injOn_line.leftInvOn_invFunOn
      (s.story_finite duration _ (List.getElem_mem hk) _)
  · intro k entry hentry
    rw [hentries, List.getElem?_mapIdx] at hentry
    obtain ⟨event, -, rfl⟩ := Option.map_eq_some_iff.1 hentry
    exact RunEvent.fill_traceId _ event
  · rw [Emitter.filterMap_entries RunEvent.point?_entry, Simulator.filterMap_story duration rfl ?_,
      Simulator.points_toldAll]
    unfold Run.ending
    cases s.run.result <;> rfl

/-- The ten entries of `rising`, whose ratio is held once between the phases. -/
theorem log_narrates_rising :
    Simulator.ofCurves Simulator.rising.runConfig Simulator.rising.primary Simulator.rising.secondary =
        .ok Simulator.rising ∧
      ({ runId := "run", component := "simulator" } : Emitter).Fresh ∧
      ∃ (read : String → LogEntry) (after : Emitter) (entries : List LogEntry),
        (Simulator.rising.runConfig.runLogged Simulator.rising.primary Simulator.rising.secondary
          12).run.run { runId := "run", component := "simulator" } =
            (.ok Simulator.risingTrace, after) ∧
        after.sink.lines.toList.map read = entries ∧
        entries.map (·.event) = ["simulation_start", "controller_step", "phase_converged", "hold",
          "phase_switch", "controller_step", "controller_step", "controller_step", "phase_converged",
          "simulation_complete"] ∧
        Simulator.risingTrace.ToldBy entries := by
  have hfresh : ({ runId := "run", component := "simulator" } : Emitter).Fresh :=
    ⟨rfl, rfl, fun _ => rfl⟩
  obtain ⟨read, hread⟩ := log_narrates
  obtain ⟨after, entries, hrun, -, hlines, hentries, -, -, -, htold⟩ := hread _ _ _ 12 _
    Simulator.rising Simulator.rising.ofCurves_self hfresh
  rw [Simulator.rising_run] at hrun
  refine ⟨Simulator.rising.ofCurves_self, hfresh, read, after, entries, hrun, hlines, ?_,
    htold _ Simulator.rising_run⟩
  rw [hentries]
  decide +kernel

end Interleave
