import Interleave.Proofs.Json.SingleLine
import Interleave.Proofs.Log.Entries
import Interleave.Proofs.Log.Story
import Interleave.Proofs.Simulation.Observed

/-!
# Logged lines pass the schema

The writer of a log and its schema know nothing of each other. They agree because of what holds of
every run: ratios stay in their range, steps and proposals in their words, bandwidths are finite, and
every controller step comes with a decision. So each event that a run tells is `Loggable`, and the
entry of a loggable event is well-formed whatever the names of the run and its component are.

Numbers with a fraction have to be read back as they were written, which is a matter of the reader of
numbers: it is asked for the bandwidths of the run and the threshold, and for no others.

Results:
* `RunEvent.Loggable.wellFormed`: the entry of a loggable event is well-formed.
* `Simulator.story_loggable`: every event of a run is loggable.
* `log_conforms`: each line that a run logs is one line, and the schema reads it as its entry.
-/
namespace Interleave

/-! ## Entries of events -/

/-- The data of a point can be written and read. -/
structure TracePoint.Loggable (p : TracePoint) : Prop where
  iteration : p.iteration ≤ maxCount
  ratio : p.ratio ≤ maxRatio
  step : Step.InWord p.step
  finite : p.bandwidth.isFinite = true
  readsBack : (Json.Number.real p.bandwidth).ReadsBack

/-- The data of an event can be written and read. -/
def RunEvent.Loggable : RunEvent → Prop
  | .started config => config.toJson.Fits LogEntry.detailDepth
  | .switched _ _ iteration => iteration ≤ maxCount
  | .stepped point decision => point.Loggable ∧ Step.InWord decision.proposed
  | .held point | .converged point => point.Loggable
  | .completed trace duration =>
    (traceDetails trace).Fits LogEntry.detailDepth ∧ duration ≤ maxCount
  | .failed _ duration => duration ≤ maxCount

namespace LogEntry

variable {e : LogEntry}

theorem isStructured_append (cs ds : List Char) :
    Schema.isStructured (cs ++ ':' :: ':' :: ds) = true := by
  induction cs with
  | nil => rfl
  | cons c cs ih =>
    rw [List.cons_append]
    unfold Schema.isStructured
    split
    · rfl
    · rename_i heq
      cases heq
      exact ih
    · rename_i heq
      cases heq

/-- A fresh entry has a trace id with double colons, whatever the names in it are. -/
theorem typed_draft (e : Emitter) (level : Level) (event : String) : (e.draft level event).Typed where
  traceId := by
    have h := isStructured_append e.runId.toList
      (e.component.toList ++ (':' :: ':' :: (Utc.padded 3 (e.count + 1)).toList))
    rw [Emitter.draft, Emitter.next, Emitter.traceId]
    simp only [String.toList_append, List.append_assoc]
    exact h
  rule := nofun
  iteration := nofun
  ratio := nofun
  step := nofun
  bandwidth := nofun
  duration := nofun
  details := nofun

theorem Typed.withPhase (h : e.Typed) (phase : Phase) : (e.withPhase phase).Typed := { h with }

theorem Typed.withOutcome (h : e.Typed) (outcome : Outcome) : (e.withOutcome outcome).Typed := { h with }

theorem Typed.withDuration (h : e.Typed) {duration : Nat} (hd : duration ≤ maxCount) :
    (e.withDuration duration).Typed :=
  { h with duration := by rintro n ⟨⟩; exact hd }

theorem Typed.withPoint (h : e.Typed) {p : TracePoint} (hp : p.Loggable) : (e.withPoint p).Typed :=
  { h with
    iteration := by rintro n ⟨⟩; exact hp.iteration
    ratio := by rintro n ⟨⟩; exact hp.ratio
    step := by rintro n ⟨⟩; exact hp.step
    bandwidth := by rintro x ⟨⟩; exact ⟨hp.finite, hp.readsBack⟩ }

theorem Typed.withDetails (h : e.Typed) {ms : List (String × Json)}
    (hd : (Json.object ms).Fits detailDepth) : (e.withDetails (.object ms)).Typed :=
  { h with details := by rintro d ⟨⟩; exact ⟨hd.canonical, nofun, Json.canonical_canonical _⟩ }

theorem Typed.withDecision (h : e.Typed) {d : Decision} (hd : Step.InWord d.proposed) :
    (e.withDecision d).Typed := by
  have hrule : ({ e with rule := some d.rule.name } : LogEntry).Typed :=
    { h with
      rule := by
        rintro r ⟨⟩
        cases d.rule <;> decide }
  exact hrule.withDetails (fits_decisionDetails hd)

theorem Typed.wellFormed (h : e.Typed) (hevent : e.event ≠ stepEvent) : e.WellFormed :=
  ⟨h, fun hstep => absurd hstep hevent⟩

end LogEntry

/-- The entry of a loggable event is well-formed, whoever writes it. -/
theorem RunEvent.Loggable.wellFormed {event : RunEvent} (h : event.Loggable) (e : Emitter) :
    (event.entry e).WellFormed := by
  have hdraft := LogEntry.typed_draft e event.level event.name
  cases event with
  | started config =>
    exact (hdraft.withDetails h).wellFormed (show "simulation_start" ≠ stepEvent by decide)
  | switched a b i =>
    refine ((hdraft.withPhase b).withDetails ?_).wellFormed (show "phase_switch" ≠ stepEvent by decide)
    apply Json.fits_object
    simp only [List.forall_mem_cons, List.not_mem_nil, false_implies, implies_true, and_true]
    exact ⟨Json.fits_string a.name, Json.fits_nat h⟩
  | stepped p d =>
    exact ⟨(hdraft.withPoint h.1).withDecision h.2, fun _ => ⟨rfl, rfl, rfl, rfl, rfl, rfl⟩⟩
  | held p => exact (hdraft.withPoint h).wellFormed (show "hold" ≠ stepEvent by decide)
  | converged p =>
    exact (hdraft.withPoint h).wellFormed (show "phase_converged" ≠ stepEvent by decide)
  | completed t duration =>
    exact (((hdraft.withOutcome .pass).withDuration h.2).withDetails h.1).wellFormed
      (show "simulation_complete" ≠ stepEvent by decide)
  | failed fault duration =>
    refine (((hdraft.withOutcome (outcomeOf fault)).withDuration h).withDetails ?_).wellFormed
      (show "simulation_failed" ≠ stepEvent by decide)
    apply Json.fits_object
    rw [List.forall_mem_singleton]
    exact Json.fits_string fault.message

/-! ## Events of runs -/

/-- The numbers of a configuration fit the words that hold them. -/
structure RunConfig.InWords (c : RunConfig) : Prop where
  minStep : Step.InWord c.controller.minStep
  maxStep : Step.InWord c.controller.maxStep
  hold : c.simulator.holdIterations ≤ maxCount
  most : c.simulator.maxIterations ≤ maxCount

namespace Simulator

variable {s : Simulator} {before here : Observation} {k : Nat}

/-- The bandwidths that a run logs: the threshold, and all that it has observed. -/
def loggedBandwidths (s : Simulator) : List Float :=
  s.controller.config.lowBandwidthThreshold :: s.run.observed.map (·.point.bandwidth)

variable (hwords : s.runConfig.InWords)
  (hread : ∀ x ∈ s.loggedBandwidths, (Json.Number.real x).ReadsBack)

include hwords in
theorem lt_maxCount (hhere : s.run.observed[k]? = some here) : k < maxCount := by
  have hlength := s.length_observed_le
  have hmost : s.config.maxIterations ≤ maxCount := hwords.most
  have hk := (List.getElem?_eq_some_iff.1 hhere).1
  omega

include hwords hread

theorem point_loggable (hhere : s.run.observed[k]? = some here) : here.point.Loggable := by
  obtain ⟨hiteration, hfinite⟩ := observed_finite hhere
  obtain ⟨hratio, hstep⟩ := run_bounds hhere
  refine ⟨?_, hratio, hstep, hfinite, hread _ ?_⟩
  · rw [hiteration]
    exact (lt_maxCount hwords hhere).le
  · exact List.mem_cons_of_mem _ (List.mem_map.2 ⟨here, List.mem_of_getElem? hhere, rfl⟩)

theorem config_loggable : s.runConfig.toJson.Fits LogEntry.detailDepth := by
  have hinitial : (Json.Number.real s.config.initialBandwidth).ReadsBack := by
    apply hread
    refine List.mem_cons_of_mem _ (List.mem_map.2 ⟨s.first, List.mem_of_getElem? s.run_head, rfl⟩)
  have hthreshold := hread s.controller.config.lowBandwidthThreshold List.mem_cons_self
  have hratio := Nat.le_trans s.valid.bounds.1 (by decide : maxRatio ≤ maxCount)
  apply Json.fits_object
  simp only [List.forall_mem_cons, List.not_mem_nil, false_implies, implies_true, and_true]
  constructor
  · apply Json.fits_object
    simp only [List.forall_mem_cons, List.not_mem_nil, false_implies, implies_true, and_true]
    exact ⟨LogEntry.fits_int hwords.minStep, LogEntry.fits_int hwords.maxStep,
      Json.fits_real fun _ => hthreshold, Json.fits_string _⟩
  · apply Json.fits_object
    simp only [List.forall_mem_cons, List.not_mem_nil, false_implies, implies_true, and_true]
    exact ⟨Json.fits_nat hratio, Json.fits_real fun _ => hinitial,
      Json.fits_nat hwords.hold, Json.fits_nat hwords.most⟩

omit hread

theorem details_loggable {t : Trace} (h : s.run.result = .ok t) :
    (RunEvent.traceDetails t).Fits LogEntry.detailDepth := by
  have hpoints : t.points = s.run.observed.map (·.point) := (course_of_ok h).points_eq
  have hmarker {o : Option Nat} (ho : ∀ i ∈ o, i < t.points.length) :
      (Json.orNull .nat o).Fits (LogEntry.detailDepth - 1) := by
    apply Json.fits_orNull
    intro i hi
    have hlt := ho i hi
    rw [hpoints, List.length_map] at hlt
    exact Json.fits_nat (lt_maxCount hwords (List.getElem?_eq_getElem hlt)).le
  obtain ⟨hprimary, hswitched, hsecondary⟩ := markers_lt h
  have hlength : t.points.length ≤ maxCount := by
    rw [hpoints, List.length_map]
    exact Nat.le_trans s.length_observed_le hwords.most
  have hratio : (Json.orNull .nat t.finalRatio).Fits (LogEntry.detailDepth - 1) := by
    apply Json.fits_orNull
    intro ratio hfinal
    obtain ⟨p, hlast, rfl⟩ := Option.map_eq_some_iff.1 hfinal
    have hp := List.mem_of_getLast? hlast
    rw [hpoints, List.mem_map] at hp
    obtain ⟨o, ho, rfl⟩ := hp
    obtain ⟨k, hk⟩ := List.mem_iff_getElem?.1 ho
    exact Json.fits_nat (Nat.le_trans (run_bounds hk).1 (by decide))
  apply Json.fits_object
  simp only [List.forall_mem_cons, List.not_mem_nil, false_implies, implies_true, and_true]
  exact ⟨Json.fits_nat hlength, hratio, hmarker hprimary, hmarker hswitched, hmarker hsecondary⟩

include hread

/-- Everything that a run tells is loggable. -/
theorem story_loggable {duration : Nat} (hduration : duration ≤ maxCount) :
    ∀ event ∈ s.story duration, event.Loggable := by
  refine forall_mem_story (config_loggable hwords hread) ?_ ?_
  · intro k o hk
    have hpoint := point_loggable hwords hread hk
    exact ⟨(lt_maxCount hwords hk).le, fun d hd => ⟨hpoint, observed_proposed hk d hd⟩, hpoint, hpoint⟩
  · unfold Run.ending
    cases hresult : s.run.result with
    | ok t => exact ⟨details_loggable hwords hresult, hduration⟩
    | error fault => exact hduration

end Simulator

/-! ## Logs -/

/-- Each line that a run logs is one line, and the schema reads it as the entry that was written: of
every configuration, whatever the curves, the names and the sink are, and however the run ends. -/
theorem log_conforms (c : RunConfig) (primary : Curve) (secondary : Option Curve) (duration : Nat)
    (e : Emitter) (hwords : c.InWords) (hduration : duration ≤ maxCount)
    (hread : ∀ s, Simulator.ofCurves c primary secondary = .ok s →
      ∀ x ∈ s.loggedBandwidths, (Json.Number.real x).ReadsBack) :
    ∃ entries : List LogEntry,
      ((c.runLogged primary secondary duration).run.run e).2.sink.lines.toList =
        e.sink.lines.toList ++ entries.map LogEntry.line ∧
      ∀ entry ∈ entries,
        (∃ s event count, Simulator.ofCurves c primary secondary = .ok s ∧
          event ∈ s.story duration ∧ entry = event.entry (e.having count)) ∧
        Text.lines (entry.line ++ "\n") = [entry.line] ∧
        ∀ number, validateLine ⟨number, entry.line⟩ = .ok entry := by
  cases hs : Simulator.ofCurves c primary secondary with
  | error fault =>
    refine ⟨[], ?_, List.forall_mem_nil _⟩
    rw [RunConfig.runLogged, hs]
    exact (List.append_nil _).symm
  | ok s =>
    obtain ⟨rfl, rfl, rfl⟩ := Simulator.of_ofCurves hs
    obtain ⟨told, hmem, hlines⟩ := (s.run.adds_log s.runConfig duration e).lines
    rw [s.events_eq_story] at hmem
    refine ⟨told.map fun p => p.2.entry (e.having p.1), ?_, ?_⟩
    · rw [RunConfig.runLogged, hs, List.map_map]
      exact hlines
    · intro entry hentry
      obtain ⟨p, hp, rfl⟩ := List.mem_map.1 hentry
      have hloggable := Simulator.story_loggable hwords (hread s hs) hduration p.2 (hmem p hp)
      refine ⟨⟨s, p.2, p.1, rfl, hmem p hp, rfl⟩, Json.lines_compact _, ?_⟩
      intro number
      rw [validateLine, LogEntry.check_line (hloggable.wellFormed _)]
      rfl

/-- An emitter with names that need escapes, or have double colons themselves. -/
def Emitter.awkward : Emitter where
  runId := "run \"7\"\n"
  component := "m::\\é"

/-- All ten lines of `rising` pass. -/
theorem log_conforms_rising : Simulator.rising.runConfig.InWords ∧
    (∀ x ∈ Simulator.rising.loggedBandwidths, (Json.Number.real x).ReadsBack) ∧
    ∃ entries : List LogEntry, entries.length = 10 ∧
      ((Simulator.rising.runConfig.runLogged Simulator.rising.primary Simulator.rising.secondary
        12).run.run Emitter.awkward).2.sink.lines.toList = entries.map LogEntry.line ∧
      ∀ entry ∈ entries, validateLine ⟨1, entry.line⟩ = .ok entry := by
  have hwords : Simulator.rising.runConfig.InWords :=
    ⟨by decide, by decide, by decide, by decide⟩
  have hread : ∀ x ∈ Simulator.rising.loggedBandwidths, (Json.Number.real x).ReadsBack := by
    have hlist : Simulator.rising.loggedBandwidths =
        [250.0, 500.0, 400.0, 400.0, 500.0, 492.0, 496.0] := by decide +kernel
    have hone {x : Float} (hx : x.isFinite = true)
        (h : (Json.Number.real x).numeral.value? = some (.real x)) : (Json.Number.real x).ReadsBack :=
      (Json.readsBack_iff (n := .real x) hx).2 h
    rw [hlist]
    simp only [List.forall_mem_cons, List.not_mem_nil, false_implies, implies_true, and_true]
    exact ⟨hone (by decide +kernel) (by decide +kernel), hone (by decide +kernel) (by decide +kernel),
      hone (by decide +kernel) (by decide +kernel), hone (by decide +kernel) (by decide +kernel),
      hone (by decide +kernel) (by decide +kernel), hone (by decide +kernel) (by decide +kernel),
      hone (by decide +kernel) (by decide +kernel)⟩
  obtain ⟨entries, hlines, hentries⟩ := log_conforms Simulator.rising.runConfig
    Simulator.rising.primary Simulator.rising.secondary 12 Emitter.awkward hwords (by decide) (by
      intro s hs
      rw [Simulator.rising.ofCurves_self] at hs
      cases hs
      exact hread)
  have hlength : ((Simulator.rising.runConfig.runLogged Simulator.rising.primary
      Simulator.rising.secondary 12).run.run Emitter.awkward).2.sink.lines.size = 10 := by
    decide +kernel
  change _ = [] ++ entries.map LogEntry.line at hlines
  rw [List.nil_append] at hlines
  refine ⟨hwords, hread, entries, ?_, hlines, fun entry h => (hentries entry h).2.2 1⟩
  rw [← List.length_map (f := LogEntry.line), ← hlines, Array.length_toList, hlength]

end Interleave
