import Interleave.Log.Run
import Interleave.Proofs.Fallible

/-!
# What a log stores

Writing an event takes up a number whether the sink takes the line or not, and touches nothing else of
an emitter. So whatever a sink refuses, a log adds lines of its events and no others (`Emitter.Adds`).
An open sink takes every line: then the log has all its events, numbered in their order.

Results:
* `Run.adds_log`: what the log of a run adds to any sink.
* `Run.log_open`: what the log of a run leaves in an open sink, and how it ends.
-/
namespace Interleave

/-! ## Steps of a log -/

namespace Logging

variable {ε α β : Type}

theorem run_adapt (x : Logging IoFault α) (e : Emitter) :
    x.io.run.run e = ((x.run.run e).1.mapError Fault.io, (x.run.run e).2) := rfl

theorem run_observing (x : Logging IoFault α) (e : Emitter) :
    (Run.log.observing x).run.run e = (.ok (x.run.run e).1, (x.run.run e).2) := rfl

end Logging

/-! ## Events -/

/-- How the story of a run ends. -/
def Run.ending (run : Run) (duration : Nat) : RunEvent :=
  match run.result with
  | .ok trace => .completed trace duration
  | .error fault => .failed fault duration

/-- All that a log has to tell about a run. -/
def Run.events (run : Run) (config : RunConfig) (duration : Nat) : List RunEvent :=
  .started config :: (narration none run.observed ++ [run.ending duration])

/-- The entry of the event from an emitter that is about to write it. -/
def RunEvent.entry (event : RunEvent) (e : Emitter) : LogEntry :=
  event.fill (e.draft event.level event.name)

namespace Emitter

/-- The emitter when it has given out `count` trace ids. -/
def having (e : Emitter) (count : Nat) : Emitter := { e with count }

/-- The emitter when it has handed the line of an event to its sink. -/
def wrote (e : Emitter) (event : RunEvent) : Emitter :=
  { e with count := e.count + 1, sink := (e.sink.write (event.line e)).2 }

theorem record_run (event : RunEvent) (e : Emitter) :
    event.record.run.run e = ((e.sink.write (event.line e)).1, e.wrote event) :=
  event.record_run e

/-! ## Any sink -/

/-- The emitter `e'` is `e` with more lines, all of which tell one of the events. -/
structure Adds (events : List RunEvent) (e e' : Emitter) : Prop where
  runId : e'.runId = e.runId
  component : e'.component = e.component
  time : e'.time = e.time
  lines : ∃ told : List (Nat × RunEvent), (∀ p ∈ told, p.2 ∈ events) ∧
    e'.sink.lines.toList = e.sink.lines.toList ++ told.map fun p => p.2.line (e.having p.1)

variable {events : List RunEvent} {e e' e'' : Emitter}

theorem Adds.refl (events : List RunEvent) (e : Emitter) : Adds events e e :=
  ⟨rfl, rfl, rfl, [], List.forall_mem_nil _, (List.append_nil _).symm⟩

/-- Lines depend on nothing of an emitter that writing changes, but for the number. -/
theorem Adds.line (h : Adds events e e') (event : RunEvent) (count : Nat) :
    event.line (e'.having count) = event.line (e.having count) := by
  simp only [RunEvent.line, draft, next, having, h.runId, h.component, h.time]

theorem Adds.trans (h : Adds events e e') (h' : Adds events e' e'') : Adds events e e'' := by
  obtain ⟨told, hmem, hlines⟩ := h.lines
  obtain ⟨told', hmem', hlines'⟩ := h'.lines
  refine ⟨h'.runId.trans h.runId, h'.component.trans h.component, h'.time.trans h.time,
    told ++ told', List.forall_mem_append.2 ⟨hmem, hmem'⟩, ?_⟩
  rw [hlines', hlines, List.append_assoc, List.map_append]
  simp only [h.line]

theorem adds_wrote {event : RunEvent} (h : event ∈ events) : Adds events e (e.wrote event) := by
  have hwrite := e.sink.write_lines (event.line e)
  refine ⟨rfl, rfl, rfl, ?_⟩
  by_cases haccepts : e.sink.accepts e.sink.attempts = true
  · rw [if_pos haccepts] at hwrite
    exact ⟨[(e.count, event)], by simpa using h, hwrite⟩
  · rw [if_neg haccepts] at hwrite
    exact ⟨[], List.forall_mem_nil _, hwrite⟩

end Emitter

/-- Wherever the step starts from, it adds lines that tell one of the events. -/
def Logging.Adds {ε α : Type} (events : List RunEvent) (x : Logging ε α) : Prop :=
  ∀ e, Emitter.Adds events e (x.run.run e).2

namespace Logging

variable {ε α β : Type} {events : List RunEvent}

theorem adds_pure (a : α) : Adds events (pure a : Logging ε α) := Emitter.Adds.refl events

theorem adds_throw (fault : ε) : Adds events (throw fault : Logging ε α) := Emitter.Adds.refl events

theorem Adds.bind {x : Logging ε α} {f : α → Logging ε β} (hx : x.Adds events)
    (hf : ∀ a, (f a).Adds events) : (x >>= f).Adds events := by
  intro e
  have hfirst := hx e
  rw [Fallible.run_bind]
  cases hrun : x.run.run e with
  | mk result e' =>
    rw [hrun] at hfirst
    cases result with
    | ok a => exact hfirst.trans (hf a e')
    | error fault => exact hfirst

theorem Adds.io {x : Logging IoFault α} (h : x.Adds events) : x.io.Adds events := h

theorem Adds.observing {x : Logging IoFault α} (h : x.Adds events) :
    (Run.log.observing x).Adds events := h

theorem adds_record {event : RunEvent} (h : event ∈ events) : event.record.Adds events := by
  intro e
  rw [Emitter.record_run]
  exact Emitter.adds_wrote h

theorem adds_recordAll {told : List RunEvent} (h : ∀ event ∈ told, event ∈ events) :
    (RunEvent.recordAll told).Adds events := by
  induction told with
  | nil => exact adds_pure ()
  | cons event told ih =>
    rw [List.forall_mem_cons] at h
    exact (adds_record h.1).bind fun _ => ih h.2

end Logging

/-- The log of a run adds only lines that tell of the run. -/
theorem Run.adds_log (run : Run) (config : RunConfig) (duration : Nat) :
    (run.log config duration).Adds (run.events config duration) := by
  have hstart : RunEvent.started config ∈ run.events config duration := List.mem_cons_self
  have hending : run.ending duration ∈ run.events config duration := by simp [events]
  have htold : ∀ event ∈ narration none run.observed, event ∈ run.events config duration := by
    intro event h
    simp [events, h]
  unfold log
  refine (Logging.adds_record hstart).io.bind fun _ =>
    (Logging.adds_recordAll htold).observing.bind fun told => ?_
  unfold ending at hending
  cases hresult : run.result with
  | error fault =>
    rw [hresult] at hending
    exact (Logging.adds_record hending).observing.bind fun _ => Logging.adds_throw _
  | ok trace =>
    rw [hresult] at hending
    cases told with
    | error fault => exact Logging.adds_throw (Fault.io fault)
    | ok _ => exact (Logging.adds_record hending).io.bind fun _ => Logging.adds_pure trace

/-! ## Open sinks -/

/-- The sink takes every line. -/
def Sink.IsOpen (s : Sink) : Prop := ∀ attempt, s.accepts attempt = true

namespace Emitter

variable {e : Emitter}

theorem write_of_isOpen (h : e.sink.IsOpen) (line : String) : e.sink.write line =
    (.ok (), { e.sink with attempts := e.sink.attempts + 1, lines := e.sink.lines.push line }) :=
  if_pos (h _)

/-- The emitter when it has handed the lines of events to its sink, one after the other. -/
def wroteAll (e : Emitter) (events : List RunEvent) : Emitter := events.foldl wrote e

theorem isOpen_wrote (h : e.sink.IsOpen) (event : RunEvent) : (e.wrote event).sink.IsOpen := by
  rw [wrote, write_of_isOpen h]
  exact h

theorem isOpen_wroteAll (h : e.sink.IsOpen) (events : List RunEvent) :
    (e.wroteAll events).sink.IsOpen := by
  induction events generalizing e with
  | nil => exact h
  | cons event events ih => exact ih (isOpen_wrote h event)

theorem record_open (h : e.sink.IsOpen) (event : RunEvent) :
    event.record.run.run e = (.ok (), e.wrote event) := by
  rw [record_run, write_of_isOpen h]

theorem recordAll_open (h : e.sink.IsOpen) (events : List RunEvent) :
    (RunEvent.recordAll events).run.run e = (.ok (), e.wroteAll events) := by
  induction events generalizing e with
  | nil => rfl
  | cons event events ih =>
    rw [RunEvent.recordAll, Fallible.run_bind, record_open h]
    exact ih (isOpen_wrote h event)

/-- The entries of events, numbered from the next trace id on. -/
def entries (e : Emitter) (events : List RunEvent) : List LogEntry :=
  events.mapIdx fun k event => event.entry (e.having (e.count + k))

theorem entries_cons (e : Emitter) (event : RunEvent) (events : List RunEvent) :
    e.entries (event :: events) = event.entry e :: (e.wrote event).entries events := by
  have hlater (k : Nat) (event' : RunEvent) : event'.entry (e.having (e.count + (k + 1))) =
      event'.entry ((e.wrote event).having ((e.wrote event).count + k)) := by
    rw [Nat.add_comm k, ← Nat.add_assoc]
    rfl
  unfold entries
  rw [List.mapIdx_cons]
  simp only [hlater]
  rfl

/-- What is read off entries without looking at who wrote them is read off the events. -/
theorem filterMap_entries {β : Type} {f : LogEntry → Option β} {g : RunEvent → Option β}
    (h : ∀ event e, f (event.entry e) = g event) (e : Emitter) (events : List RunEvent) :
    (e.entries events).filterMap f = events.filterMap g := by
  induction events generalizing e with
  | nil => rfl
  | cons event events ih => rw [entries_cons, List.filterMap_cons, List.filterMap_cons, h, ih]

/-- An open sink has a line for every event, in their order. -/
theorem lines_wroteAll (h : e.sink.IsOpen) (events : List RunEvent) :
    (e.wroteAll events).sink.lines.toList =
      e.sink.lines.toList ++ (e.entries events).map LogEntry.line := by
  induction events generalizing e with
  | nil => simp [wroteAll, entries]
  | cons event events ih =>
    have hfirst : (e.wrote event).sink.lines.toList = e.sink.lines.toList ++ [event.line e] := by
      rw [wrote, write_of_isOpen h]
      exact Array.toList_push
    have hrest := ih (isOpen_wrote h event)
    rw [hfirst, List.append_assoc] at hrest
    rw [entries_cons, List.map_cons]
    exact hrest

end Emitter

/-- With an open sink, a run that succeeds or fails does so with its log written to the end. -/
theorem Run.log_open (run : Run) (config : RunConfig) (duration : Nat) {e : Emitter}
    (h : e.sink.IsOpen) : (run.log config duration).run.run e =
      (run.result.mapError Fault.control, e.wroteAll (run.events config duration)) := by
  have hstart := Emitter.isOpen_wrote h (.started config)
  have htold := Emitter.isOpen_wroteAll hstart (narration none run.observed)
  have hall (event : RunEvent) : e.wroteAll (.started config :: (narration none run.observed ++ [event])) =
      ((e.wrote (.started config)).wroteAll (narration none run.observed)).wrote event := by
    rw [Emitter.wroteAll, List.foldl_cons, List.foldl_append]
    rfl
  rw [log, Fallible.run_bind, Logging.run_adapt, Emitter.record_open h]
  dsimp only [Except.mapError]
  rw [Fallible.run_bind, Logging.run_observing, Emitter.recordAll_open hstart]
  dsimp only
  unfold events ending
  cases run.result with
  | ok trace =>
    dsimp only
    rw [hall, Fallible.run_bind, Logging.run_adapt, Emitter.record_open htold]
    rfl
  | error fault =>
    dsimp only
    rw [hall, Fallible.run_bind, Logging.run_observing, Emitter.record_open htold]
    rfl

end Interleave
