import Interleave.Proofs.Log.Story

/-!
# Logs that break off

A sink that gives out takes some lines and then refuses every line (`Sink.Takes`). The log of a run
hands its events on until the first of them is refused. After that only the failure of the run is
tried again, which is refused like all else; so what is stored is the beginning of the whole log.

The run itself goes on, and its fault comes before that of the sink. But the line of the start is
handed on before the run: if the sink refuses that one, the refusal is all that is reported.

Results:
* `Run.lines_log_takes`, `Run.result_log_takes`: what a sink that gives out has of a log, and how the log
  ends.
* `log_result_of_refusal`: which fault or trace is reported, wherever the sink gives out.
* `log_prefix_of_refusal`: what is stored is the beginning of the log that an open sink stores.
-/
namespace Interleave

/-! ## Sinks that give out -/

namespace Sink

/-- The sink takes `n` more lines and then refuses every line. -/
def Takes (s : Sink) (n : Nat) : Prop := ∀ k, s.accepts (s.attempts + k) = decide (k < n)

variable {s : Sink} {n : Nat}

theorem takes_upTo (n : Nat) : (upTo n).Takes n := by
  intro k
  change decide (0 + k < n) = decide (k < n)
  rw [Nat.zero_add]

theorem Takes.accepts_eq (h : s.Takes n) : s.accepts s.attempts = decide (0 < n) := h 0

theorem Takes.write (h : s.Takes n) (line : String) :
    (s.write line).1 = (if 0 < n then .ok () else .error .refused) := by
  unfold Sink.write
  rw [h.accepts_eq]
  by_cases hn : 0 < n
  · rw [if_pos hn, if_pos (decide_eq_true hn)]
  · rw [if_neg hn, if_neg (by simpa using hn)]

theorem Takes.after_write (h : s.Takes n) (line : String) : (s.write line).2.Takes (n - 1) := by
  have hattempts : (s.write line).2.accepts = s.accepts ∧
      (s.write line).2.attempts = s.attempts + 1 := by
    unfold Sink.write
    split <;> exact ⟨rfl, rfl⟩
  intro k
  rw [hattempts.1, hattempts.2, Nat.add_assoc, h, decide_eq_decide]
  omega

theorem Takes.lines_write (h : s.Takes n) (line : String) :
    (s.write line).2.lines.toList = s.lines.toList ++ [line].take n := by
  rw [write_lines, h.accepts_eq]
  cases n <;> simp

end Sink

namespace Emitter

variable {e : Emitter} {n : Nat}

theorem takes_wrote (h : e.sink.Takes n) (event : RunEvent) : (e.wrote event).sink.Takes (n - 1) :=
  h.after_write _

theorem takes_wroteAll (h : e.sink.Takes n) (events : List RunEvent) :
    (e.wroteAll events).sink.Takes (n - events.length) := by
  induction events generalizing e n with
  | nil => exact h
  | cons event events ih =>
    have hrest := ih (takes_wrote h event)
    rwa [Nat.sub_sub, Nat.add_comm] at hrest

theorem record_takes (h : e.sink.Takes n) (event : RunEvent) :
    event.record.run.run e = (if 0 < n then .ok () else .error .refused, e.wrote event) := by
  rw [record_run, h.write]

theorem wroteAll_concat (e : Emitter) (events : List RunEvent) (event : RunEvent) :
    e.wroteAll (events ++ [event]) = (e.wroteAll events).wrote event := by
  rw [wroteAll, List.foldl_append]
  rfl

/-- Events are handed on up to the first that is refused. -/
theorem recordAll_takes (h : e.sink.Takes n) (events : List RunEvent) :
    (RunEvent.recordAll events).run.run e =
      (if events.length ≤ n then .ok () else .error .refused, e.wroteAll (events.take (n + 1))) := by
  induction events generalizing e n with
  | nil => rfl
  | cons event events ih =>
    rw [RunEvent.recordAll, Fallible.run_bind, record_takes h]
    cases n with
    | zero => rfl
    | succ n =>
      have hrest := ih (takes_wrote h event)
      rw [if_pos (Nat.succ_pos n)]
      dsimp only
      rw [hrest, List.length_cons, List.take_succ_cons]
      simp only [Nat.add_sub_cancel, Nat.add_le_add_iff_right]
      rfl

theorem entries_take (e : Emitter) (events : List RunEvent) (n : Nat) :
    e.entries (events.take n) = (e.entries events).take n := by
  induction events generalizing e n with
  | nil => simp [entries]
  | cons event events ih =>
    cases n with
    | zero => rfl
    | succ n => rw [List.take_succ_cons, entries_cons, entries_cons, List.take_succ_cons, ih]

/-- Of the lines that are handed on, the sink stores those that it takes. -/
theorem lines_wroteAll_takes (h : e.sink.Takes n) (events : List RunEvent) :
    (e.wroteAll events).sink.lines.toList =
      e.sink.lines.toList ++ (e.entries (events.take n)).map LogEntry.line := by
  induction events generalizing e n with
  | nil => simp [wroteAll, entries]
  | cons event events ih =>
    have hfirst : (e.wrote event).sink.lines.toList = e.sink.lines.toList ++ [event.line e].take n :=
      h.lines_write _
    have hrest := ih (takes_wrote h event)
    rw [hfirst, List.append_assoc] at hrest
    refine hrest.trans ?_
    cases n with
    | zero => rfl
    | succ n =>
      rw [List.take_succ_cons (a := event), entries_cons, List.map_cons, List.take_succ_cons,
        List.take_nil]
      rfl

end Emitter

/-! ## Logs -/

namespace Run

/-- What is reported of a run whose log has `length` lines and goes to a sink that takes `n`. -/
def reported (run : Run) (length n : Nat) : Except Fault Trace :=
  match run.result with
  | .ok trace => if length ≤ n then .ok trace else .error (.io .refused)
  | .error fault => if n = 0 then .error (.io .refused) else .error (.control fault)

variable {run : Run} {e : Emitter} {n : Nat} {trace : Trace} {fault : ControlFault}
  (config : RunConfig) (duration : Nat)

theorem events_of_ok (hresult : run.result = .ok trace) : run.events config duration =
    .started config :: (narration none run.observed ++ [.completed trace duration]) := by
  rw [events, ending, hresult]

theorem events_of_error (hresult : run.result = .error fault) : run.events config duration =
    .started config :: (narration none run.observed ++ [.failed fault duration]) := by
  rw [events, ending, hresult]

/-- A log whose first line is refused ends there. -/
theorem log_takes_zero (h : e.sink.Takes 0) : (run.log config duration).run.run e =
    (.error (.io .refused), e.wrote (.started config)) := by
  rw [log, Fallible.run_bind, Logging.run_adapt, Emitter.record_takes h]
  rfl

/-- Behind the start, the observations are told up to the first refusal. The end of a run that fails is told
whatever was refused, and that of a run that succeeds only if nothing was. -/
theorem log_takes_succ (h : e.sink.Takes (n + 1)) : (run.log config duration).run.run e =
    let told := narration none run.observed
    let after := (e.wrote (.started config)).wroteAll (told.take (n + 1))
    match run.result with
    | .error fault => (.error (.control fault), after.wrote (.failed fault duration))
    | .ok trace =>
      if told.length ≤ n then
        (if told.length < n then .ok trace else .error (.io .refused),
          after.wrote (.completed trace duration))
      else (.error (.io .refused), after) := by
  have hstart := Emitter.takes_wrote h (.started config)
  rw [Nat.add_sub_cancel] at hstart
  rw [log, Fallible.run_bind, Logging.run_adapt, Emitter.record_takes h, if_pos (Nat.succ_pos n)]
  dsimp only [Except.mapError]
  rw [Fallible.run_bind, Logging.run_observing, Emitter.recordAll_takes hstart]
  generalize narration none run.observed = told
  cases run.result with
  | error fault =>
    dsimp only
    rw [Fallible.run_bind, Logging.run_observing, Emitter.record_run]
    rfl
  | ok trace =>
    by_cases hfits : told.length ≤ n
    · have hall := Emitter.takes_wroteAll hstart told
      rw [if_pos hfits, List.take_of_length_le (by omega)]
      dsimp only
      rw [if_pos hfits, Fallible.run_bind, Logging.run_adapt, Emitter.record_takes hall]
      by_cases hlast : told.length < n
      · rw [if_pos (Nat.sub_pos_of_lt hlast), if_pos hlast]
        rfl
      · rw [if_neg (by omega), if_neg hlast]
        rfl
    · rw [if_neg hfits]
      dsimp only
      rw [if_neg hfits]
      rfl

/-- The log of a run that succeeds ends with the first refusal. -/
theorem log_takes_of_ok (h : e.sink.Takes n) (hresult : run.result = .ok trace) :
    (run.log config duration).run.run e =
      (if (run.events config duration).length ≤ n then .ok trace else .error (.io .refused),
        e.wroteAll ((run.events config duration).take (n + 1))) := by
  rw [events_of_ok config duration hresult]
  cases n with
  | zero => exact log_takes_zero config duration h
  | succ n =>
    rw [log_takes_succ config duration h, hresult]
    dsimp only
    generalize narration none run.observed = told
    have hlength : (RunEvent.started config :: (told ++ [.completed trace duration])).length =
        told.length + 2 := by simp
    rw [hlength]
    by_cases hfits : told.length ≤ n
    · have hroom : told.length + 2 ≤ n + 1 ↔ told.length < n := by omega
      rw [if_pos hfits, List.take_of_length_le (by omega), List.take_of_length_le (by omega)]
      simp only [hroom]
      exact congrArg (Prod.mk _) (Emitter.wroteAll_concat _ _ _).symm
    · rw [if_neg hfits, if_neg (by omega), List.take_succ_cons,
        List.take_append_of_le_length (by omega)]
      rfl

/-- The log of a run that fails hands on the failure whatever was refused after the start. -/
theorem log_takes_of_error (h : e.sink.Takes (n + 1)) (hresult : run.result = .error fault) :
    (run.log config duration).run.run e =
      (.error (.control fault), e.wroteAll
        (.started config :: ((narration none run.observed).take (n + 1) ++
          [.failed fault duration]))) := by
  rw [log_takes_succ config duration h, hresult]
  exact congrArg (Prod.mk _) (Emitter.wroteAll_concat _ _ _).symm

/-- The lines that a log stores in a sink that gives out. -/
theorem lines_log_takes (run : Run) (h : e.sink.Takes n) :
    ((run.log config duration).run.run e).2.sink.lines.toList = e.sink.lines.toList ++
      (e.entries ((run.events config duration).take n)).map LogEntry.line := by
  cases hresult : run.result with
  | ok trace =>
    rw [log_takes_of_ok config duration h hresult, Emitter.lines_wroteAll_takes h, List.take_take,
      Nat.min_eq_left (Nat.le_succ n)]
  | error fault =>
    cases n with
    | zero =>
      rw [log_takes_zero config duration h]
      exact Emitter.lines_wroteAll_takes h [.started config]
    | succ n =>
      rw [log_takes_of_error config duration h hresult, Emitter.lines_wroteAll_takes h,
        events_of_error config duration hresult, List.take_succ_cons, List.take_succ_cons]
      congr 4
      -- the failure is told behind the first refusal, or in its own place
      rw [List.take_append, List.take_append, List.take_take, Nat.min_eq_left (Nat.le_succ n),
        List.length_take]
      congr 2
      omega

theorem result_log_takes (run : Run) (h : e.sink.Takes n) :
    ((run.log config duration).run.run e).1 =
      run.reported (run.events config duration).length n := by
  unfold reported
  cases hresult : run.result with
  | ok trace => rw [log_takes_of_ok config duration h hresult]
  | error fault =>
    cases n with
    | zero =>
      rw [log_takes_zero config duration h]
      rfl
    | succ n =>
      rw [log_takes_of_error config duration h hresult]
      rfl

end Run

/-! ## Configurations -/

/-- A configuration that nothing is wrong with can be simulated. -/
theorem Simulator.exists_ofCurves {c : RunConfig} (hvalid : c.validate = .ok ()) (primary : Curve)
    (secondary : Option Curve) : ∃ s, ofCurves c primary secondary = .ok s := by
  obtain ⟨hcontroller, hsimulator⟩ := RunConfig.validate_eq_ok_iff.1 hvalid
  exact ⟨_, ofCurves_self ⟨⟨c.controller, hcontroller⟩, c.simulator, hsimulator, primary, secondary⟩⟩

/-- The emitter with a sink that takes every line. -/
def Emitter.opened (e : Emitter) : Emitter := { e with sink := {} }

/-- The emitter with a sink that gives out after so many lines. -/
def Emitter.limited (e : Emitter) (n : Nat) : Emitter := { e with sink := .upTo n }

/-- The lines of a log that nothing refuses. -/
theorem Run.lines_log_opened (run : Run) (config : RunConfig) (duration : Nat) (e : Emitter) :
    ((run.log config duration).run.run e.opened).2.sink.lines.toList =
      (e.entries (run.events config duration)).map LogEntry.line := by
  have hopen : e.opened.sink.IsOpen := fun _ => rfl
  rw [run.log_open config duration hopen, Emitter.lines_wroteAll hopen]
  rfl

/-- What a run reports with a sink that gives out: a trace if every line of the log is taken and else
the refusal, and a fault of the run before any refusal but that of the first line. -/
theorem log_result_of_refusal (c : RunConfig) (primary : Curve) (secondary : Option Curve)
    (duration n : Nat) (e : Emitter) (hvalid : c.validate = .ok ()) :
    ∃ s, Simulator.ofCurves c primary secondary = .ok s ∧
      ((c.runLogged primary secondary duration).run.run (e.limited n)).1 = s.run.reported
        ((c.runLogged primary secondary duration).run.run e.opened).2.sink.lines.size n := by
  obtain ⟨s, hs⟩ := Simulator.exists_ofCurves hvalid primary secondary
  refine ⟨s, hs, ?_⟩
  have hsize : (e.entries (s.run.events s.runConfig duration)).length =
      (s.run.events s.runConfig duration).length := List.length_mapIdx
  rw [RunConfig.runLogged, hs]
  dsimp only
  rw [Run.result_log_takes _ _ _ (Sink.takes_upTo n), ← Array.length_toList, Run.lines_log_opened,
    List.length_map, hsize]

/-- All ten lines of `rising` are taken, and all but the last. -/
theorem log_result_of_refusal_rising :
    Simulator.rising.runConfig.validate = .ok () ∧
      ((Simulator.rising.runConfig.runLogged Simulator.rising.primary Simulator.rising.secondary
        12).run.run (Emitter.limited { runId := "run", component := "simulator" } 10)).1 =
          .ok Simulator.risingTrace ∧
      ((Simulator.rising.runConfig.runLogged Simulator.rising.primary Simulator.rising.secondary
        12).run.run (Emitter.limited { runId := "run", component := "simulator" } 9)).1 =
          .error (.io .refused) := by
  have hvalid : Simulator.rising.runConfig.validate = .ok () := by decide
  have hsize : ((Simulator.rising.runConfig.runLogged Simulator.rising.primary
      Simulator.rising.secondary 12).run.run
        (Emitter.opened { runId := "run", component := "simulator" })).2.sink.lines.size = 10 := by
    decide +kernel
  have hreported (n : Nat) := log_result_of_refusal Simulator.rising.runConfig
    Simulator.rising.primary Simulator.rising.secondary 12 n
    { runId := "run", component := "simulator" } hvalid
  simp only [Simulator.rising.ofCurves_self, Except.ok.injEq, exists_eq_left', hsize,
    Run.reported, Simulator.rising_run] at hreported
  exact ⟨hvalid, hreported 10, hreported 9⟩

/-- A run that fails, with a sink that refuses the first line: the fault of the run is not reported. -/
theorem refusal_hides_fault :
    (Simulator.rising.withCap 1 (by decide)).runConfig.validate = .ok () ∧
      (Simulator.rising.withCap 1 (by decide)).run.result = .error (.noConvergence 1) ∧
      (((Simulator.rising.withCap 1 (by decide)).runConfig.runLogged Simulator.rising.primary
        Simulator.rising.secondary 0).run.run
          (Emitter.limited { runId := "run", component := "simulator" } 0)).1 =
            .error (.io .refused) := by
  refine ⟨by decide, by decide +kernel, ?_⟩
  have hself := (Simulator.rising.withCap 1 (by decide)).ofCurves_self
  change Simulator.ofCurves _ Simulator.rising.primary Simulator.rising.secondary = _ at hself
  rw [RunConfig.runLogged, hself]
  dsimp only
  rw [Run.log_takes_zero _ _ (Sink.takes_upTo 0)]

/-! ## Entries but for their times -/

/-- The entry without the times that it bears. -/
def LogEntry.timeless (entry : LogEntry) : LogEntry :=
  { entry with timestamp := "", duration := entry.duration.map fun _ => 0 }

/-- The event without the time that the run took. -/
def RunEvent.timeless : RunEvent → RunEvent
  | .completed trace _ => .completed trace 0
  | .failed fault _ => .failed fault 0
  | event => event

theorem timeless_entry (event : RunEvent) (e : Emitter) :
    (event.entry e).timeless = event.timeless.entry { e with time := "" } := by
  cases event <;> rfl

theorem timeless_entries (e : Emitter) (events : List RunEvent) :
    (e.entries events).map LogEntry.timeless =
      ({ e with time := "" } : Emitter).entries (events.map RunEvent.timeless) := by
  apply List.ext_getElem?
  intro k
  rw [List.getElem?_map, Emitter.entries, Emitter.entries, List.getElem?_mapIdx, List.getElem?_mapIdx,
    List.getElem?_map, Option.map_map, Option.map_map]
  congr 1
  funext event
  exact timeless_entry event _

theorem timeless_of_mem_events {previous : Option TracePoint} {o : Observation} {event : RunEvent}
    (h : event ∈ o.events previous) : event.timeless = event := by
  rcases List.mem_append.1 h with h | h
  · obtain ⟨p, -, rfl⟩ := Option.map_eq_some_iff.1 (Option.mem_toList.1 h)
    rfl
  · split at h
    · rcases List.mem_cons.1 h with rfl | h
      · rfl
      · split at h
        · rw [List.mem_singleton.1 h]
          rfl
        · cases h
    · split at h
      · cases h
      · rw [List.mem_singleton.1 h]
        rfl

theorem timeless_narration (previous : Option TracePoint) (observed : List Observation) :
    (narration previous observed).map RunEvent.timeless = narration previous observed := by
  induction observed generalizing previous with
  | nil => rfl
  | cons o observed ih =>
    rw [narration, List.map_append, ih]
    congr 1
    exact (List.map_congr_left fun event h => timeless_of_mem_events h).trans (List.map_id _)

/-- Without times, all logs of a run tell the same. -/
theorem timeless_events (run : Run) (config : RunConfig) (duration : Nat) :
    (run.events config duration).map RunEvent.timeless = run.events config 0 := by
  unfold Run.events Run.ending
  rw [List.map_cons, List.map_append, timeless_narration]
  cases run.result <;> rfl

/-- What a sink stores that gives out is the beginning of what an open sink stores of the same run,
with the same trace ids; with other times only the times are others. -/
theorem log_prefix_of_refusal (c : RunConfig) (primary : Curve) (secondary : Option Curve)
    (duration duration' n : Nat) (e : Emitter) (time : Clock) :
    ∃ full stored : List LogEntry,
      ((c.runLogged primary secondary duration).run.run e.opened).2.sink.lines.toList =
        full.map LogEntry.line ∧
      ((c.runLogged primary secondary duration').run.run
        { e.limited n with time }).2.sink.lines.toList = stored.map LogEntry.line ∧
      stored.map LogEntry.timeless = (full.take n).map LogEntry.timeless ∧
      (time = e.time → duration' = duration → stored = full.take n) := by
  cases hs : Simulator.ofCurves c primary secondary with
  | error fault =>
    refine ⟨[], [], ?_, ?_, by simp, by simp⟩ <;>
    · rw [RunConfig.runLogged, hs]
      rfl
  | ok s =>
    have htakes : ({ e.limited n with time } : Emitter).sink.Takes n := Sink.takes_upTo n
    refine ⟨e.entries (s.run.events s.runConfig duration),
      ({ e with time } : Emitter).entries ((s.run.events s.runConfig duration').take n), ?_, ?_, ?_, ?_⟩
    · rw [RunConfig.runLogged, hs]
      exact Run.lines_log_opened _ _ _ e
    · rw [RunConfig.runLogged, hs]
      exact Run.lines_log_takes _ _ _ htakes
    · rw [Emitter.entries_take, List.map_take, List.map_take, timeless_entries, timeless_entries,
        timeless_events, timeless_events]
    · rintro rfl rfl
      exact e.entries_take _ n

end Interleave
