import Interleave.Fault
import Interleave.Log.Entry
import Interleave.Time.Utc
/-!
# Emitting log lines

An emitter numbers entries from 1 and puts the number into their trace ids, and every entry bears a time
of its own, read off the clock as it is begun. It hands every line to a sink, which may refuse it: then the
line is lost, and so is its number.

Results:
* `write_lines`: a line that is taken is stored behind the others, and a line that is refused changes
  nothing that is stored.
* `emitEntry_run`: an entry that has a trace id is written as it is, but for its run.
-/
namespace Interleave

/-- A place where lines are stored. -/
structure Sink where
  /-- The sink takes the line of the attempt of this number, counted from 0. -/
  accepts : Nat → Bool := fun _ => true
  attempts : Nat := 0
  /-- The lines that were taken. -/
  lines : Array String := #[]

namespace Sink

/-- A sink that takes so many lines and then refuses every line. -/
def upTo (count : Nat) : Sink where
  accepts attempt := attempt < count

/-- Hands a line to the sink. -/
def write (s : Sink) (line : String) : Except IoFault Unit × Sink :=
  if s.accepts s.attempts then
    (.ok (), { s with attempts := s.attempts + 1, lines := s.lines.push line })
  else (.error .refused, { s with attempts := s.attempts + 1 })

theorem write_lines (s : Sink) (line : String) :
    (s.write line).2.lines.toList =
      s.lines.toList ++ if s.accepts s.attempts then [line] else [] := by
  unfold write; split <;> simp

end Sink

/-- The source of the lines of one component in one run. -/
structure Emitter where
  runId : String
  component : String
  /-- The clock that entries are stamped by: one that is begun when `n` trace ids were given out bears
  reading `n`. -/
  time : Clock := ""
  /-- How many trace ids were given out. -/
  count : Nat := 0
  sink : Sink := {}

/-- What an emitter does, which may end in a fault. -/
abbrev Logging (ε : Type) := ExceptT ε (StateM Emitter)

namespace Emitter

/-- The trace id of a number. -/
def traceId (runId component : String) (number : Nat) : String :=
  runId ++ "::" ++ component ++ "::" ++ Utc.padded 3 number

/-- The next trace id, and the emitter that has given it out. -/
def next (e : Emitter) : String × Emitter :=
  (traceId e.runId e.component (e.count + 1), { e with count := e.count + 1 })

/-- An entry with the next trace id, the run and the component. -/
def draft (e : Emitter) (level : Level) (event : String) : LogEntry where
  timestamp := e.time.reading e.count
  traceId := e.next.1
  level := level
  event := event
  runId := some e.runId
  component := some e.component

/-- Begins an entry, which takes up its trace id whether it is written or not. -/
def entry (level : Level) (event : String) : StateM Emitter LogEntry :=
  modifyGet fun e => (e.draft level event, e.next.2)

/-- Hands a line to the sink. -/
def write (line : String) : Logging IoFault Unit :=
  ExceptT.mk <| modifyGet fun e =>
    let (result, sink) := e.sink.write line
    (result, { e with sink })

/-- Writes an entry that has only the fields of every entry. -/
def emit (level : Level) (event : String) : Logging IoFault LogEntry := do
  let entry ← entry level event
  write entry.line
  pure entry

/-- Writes an entry. One without a trace id gets the next one, and one without a run the run of the
emitter. -/
def emitEntry (entry : LogEntry) : Logging IoFault Unit := do
  let entry ← if entry.traceId = "" then
      let id ← modifyGet next
      pure { entry with traceId := id }
    else pure entry
  let e ← get
  write { entry with runId := some (entry.runId.getD e.runId) }.line

theorem traceId_ne_empty (runId component : String) (number : Nat) :
    traceId runId component number ≠ "" := by
  intro h
  have := congrArg String.length h
  simp [traceId] at this

theorem write_run (line : String) (e : Emitter) :
    (write line).run.run e = ((e.sink.write line).1, { e with sink := (e.sink.write line).2 }) := rfl

/-- Asking for the emitter gives the one at hand and changes nothing. -/
theorem get_bind_run {ε α : Type} (f : Emitter → Logging ε α) (e : Emitter) :
    (get >>= f).run.run e = (f e).run.run e := rfl

theorem emitEntry_run {entry : LogEntry} (e : Emitter) (h : entry.traceId ≠ "") :
    (emitEntry entry).run.run e =
      (write { entry with runId := some (entry.runId.getD e.runId) }.line).run.run e := by
  simp only [emitEntry, if_neg h, pure_bind]
  exact get_bind_run _ e

end Emitter

end Interleave
