import Interleave.Proofs.Command.Attempts
import Interleave.Proofs.Log.Operations

/-!
# Logs in files

The file of a log is in step with the log when it holds the text of all its lines and the next line goes
to its end (`KeptLog.InStep`). A log is opened in step, and whatever it does it is in step again before
anything else happens to the store, unless something else is written over its file. So the file of a
simulation holds the whole log whenever it is read.

Results:
* `KeptLog.gives_perform`: what a step of a log does to a store.
* `KeptLog.InStep.perform`: a log in step stays in step.
* `SimulationRequest.inStep_of_simulated`: the log of a simulation is in step, and the store has the
  directories that it had.
-/
namespace Interleave

open Desk

variable {s t : Store} {path : Option String} {emitter : Emitter}

namespace KeptLog

variable {log : KeptLog (StateM World)}

/-! ## Bringing a file up to date -/

/-- The bytes of the lines that are not in the file. -/
def rest (log : KeptLog (StateM World)) : ByteArray :=
  (String.join ((log.emitter.sink.lines.toList.drop log.saved).map (· ++ "\n"))).toUTF8

/-- The log when its lines are in its file. -/
def flushed (log : KeptLog (StateM World)) : KeptLog (StateM World) :=
  match log.file with
  | none => log
  | some (opened : World.OpenPlace) =>
    { log with
      file := some { opened with offset := opened.offset + log.rest.size }
      saved := log.emitter.sink.lines.size }

/-- The store when the lines of the log are in its file. -/
def store (log : KeptLog (StateM World)) (s : Store) : Store :=
  match log.file with
  | none => s
  | some (opened : World.OpenPlace) => s.putAt opened.place opened.offset log.rest

theorem run_flush (log : KeptLog (StateM World)) (w : World) :
    log.flush.run.run w = (.ok log.flushed, { w with store := log.store w.store }) := by
  obtain ⟨emitter, file, saved⟩ := log
  cases file <;> rfl

/-- The file is brought up to date whatever comes of the step. -/
theorem gives_perform {α : Type} {step : Logging Fault α} {result : Except Fault α} {w w' : World} {a : α}
    {log' : KeptLog (StateM World)} (hstep : step.run.run log.emitter = (result, emitter)) :
    (log.perform step).Gives w (a, log') w' ↔ result = .ok a ∧ log' = { log with emitter }.flushed ∧
      w' = { w with store := { log with emitter }.store w.store } := by
  have hrun : (log.perform step).run.run w =
      ((result.map (·, { log with emitter }.flushed)).mapError Failure.fault,
        { w with store := { log with emitter }.store w.store }) := by
    unfold perform
    rw [show Id.run (step.run.run log.emitter) = (result, emitter) from hstep]
    dsimp only
    rw [Fallible.run_bind, run_flush]
    cases result <;> rfl
  rw [Attempt.gives_of_run hrun]
  cases result <;> simp [Except.map, eq_comm, and_assoc]

theorem sameTree_store (log : KeptLog (StateM World)) (s : Store) : s.SameTree (log.store s) := by
  unfold store
  cases log.file with
  | none => exact .refl s
  | some opened => exact s.sameTree_put _ _

theorem drains_store (log : KeptLog (StateM World)) (s : Store) : (log.store s).drains = s.drains := by
  unfold store
  cases log.file with
  | none => rfl
  | some opened => exact s.drains_put _ _

/-! ## Logs in step -/

/-- A log whose file has got the lines of the sink `written`. -/
def inFile (place : Place) (written : Sink) (emitter : Emitter) : KeptLog (StateM World) where
  emitter := emitter
  file := some ({ place, offset := written.text.toUTF8.size } : World.OpenPlace)
  saved := written.lines.size

/-- The file at the path has the text of the log, and the next line goes to its end. A drain has
nothing. -/
inductive InStep (s : Store) : Option String → KeptLog (StateM World) → Prop
  | nowhere {emitter : Emitter} {saved : Nat} (isOpen : emitter.sink.IsOpen) :
    InStep s none { emitter, file := none, saved }
  | kept {path : String} {place : Place} {emitter : Emitter} (isOpen : emitter.sink.IsOpen)
    (writable : s.writable path = .ok place)
    (text : place ∉ s.drains → s.file? place = some emitter.sink.text.toUTF8) :
    InStep s (some path) (inFile place emitter.sink emitter)

theorem InStep.isOpen (h : InStep s path log) : log.emitter.sink.IsOpen := by
  cases h <;> assumption

/-- The log when its lines are stamped by another clock. -/
def atTime (log : KeptLog (StateM World)) (time : Clock) : KeptLog (StateM World) :=
  { log with emitter := { log.emitter with time } }

theorem gives_onTime {log' : KeptLog (StateM World)} {w w' : World} :
    (liftM log.onTime : Attempt (StateM World) _).Gives w log' w' ↔
      log.atTime w.clock = log' ∧ w' = w := Attempt.gives_pure (w := w)

theorem emitter_flushed (log : KeptLog (StateM World)) : log.flushed.emitter = log.emitter := by
  unfold flushed
  split <;> rfl

/-- The file of a log in step has the text of the log. -/
theorem InStep.file {path : String} (h : InStep s (some path) log) : ∃ place,
    s.writable path = .ok place ∧ (s.file? place).isSome ∧
      (place ∉ s.drains → s.file? place = some log.emitter.sink.text.toUTF8) := by
  cases h with
  | kept _ writable text => exact ⟨_, writable, Store.isSome_file? text, text⟩

/-- The clock plays no part in the file. -/
theorem InStep.atTime (h : InStep s path log) (time : Clock) : InStep s path (log.atTime time) := by
  cases h with
  | nowhere isOpen => exact .nowhere isOpen
  | kept isOpen writable text => exact .kept isOpen writable text

section
variable {place : Place} {written : Sink}

/-- A log changes no store, or the file that its path leads to. -/
theorem InStep.store_cases (h : InStep s path log) (emitter : Emitter) (t : Store) :
    (path = none ∧ { log with emitter }.store t = t) ∨
      ∃ logPath logPlace bytes, path = some logPath ∧ s.writable logPath = .ok logPlace ∧
        (s.file? logPlace).isSome ∧ { log with emitter }.store t = t.put logPlace bytes := by
  cases h with
  | nowhere => exact .inl ⟨rfl, rfl⟩
  | @kept logPath logPlace _ _ writable text =>
    exact .inr ⟨logPath, logPlace, _, rfl, writable, Store.isSome_file? text, rfl⟩

theorem text_inFile (place : Place) (h : written.lines.toList <+: emitter.sink.lines.toList) :
    written.text.toUTF8 ++ (inFile place written emitter).rest = emitter.sink.text.toUTF8 := by
  obtain ⟨told, htold⟩ := h
  have hdrop : emitter.sink.lines.toList.drop written.lines.size = told := by
    rw [← htold, ← Array.length_toList, List.drop_left]
  unfold rest Sink.text String.toUTF8
  change _ ++ (String.join ((emitter.sink.lines.toList.drop written.lines.size).map _)).toByteArray = _
  rw [hdrop, ← htold, List.map_append, String.join_append, String.toByteArray_append]

theorem flushed_inFile (h : written.lines.toList <+: emitter.sink.lines.toList) :
    (inFile place written emitter).flushed = inFile place emitter.sink emitter := by
  have hsize := congrArg ByteArray.size (text_inFile place h)
  rw [ByteArray.size_append] at hsize
  unfold flushed
  dsimp only [inFile] at hsize ⊢
  rw [hsize]

theorem store_inFile (h : written.lines.toList <+: emitter.sink.lines.toList)
    (htext : place ∉ s.drains → s.file? place = some written.text.toUTF8) :
    (inFile place written emitter).store s = s.put place emitter.sink.text.toUTF8 := by
  rw [← text_inFile place h]
  exact Store.putAt_size htext _

end

/-- A log that has more lines is in step again when its file is brought up to date. -/
theorem InStep.perform (h : InStep s path log) (hopen : emitter.sink.IsOpen)
    (hlines : log.emitter.sink.lines.toList <+: emitter.sink.lines.toList) :
    InStep ({ log with emitter }.store s) path { log with emitter }.flushed := by
  cases h with
  | nowhere => exact .nowhere hopen
  | @kept path place before _ writable text =>
    have hprefix : before.sink.lines.toList <+: emitter.sink.lines.toList := hlines
    change InStep ((inFile place before.sink emitter).store s) _ (inFile place before.sink emitter).flushed
    rw [flushed_inFile hprefix, store_inFile hprefix text]
    refine .kept hopen ((s.sameTree_put place _).writable writable) fun hdrain => ?_
    rw [Store.drains_put] at hdrain
    exact Store.file?_put _ hdrain

/-- What is written elsewhere does not matter to a log. -/
theorem InStep.put (h : InStep s path log) {place : Place} (bytes : ByteArray)
    (hother : ∀ logPath, path = some logPath → s.writable logPath ≠ .ok place) :
    InStep (s.put place bytes) path log := by
  cases h with
  | nowhere isOpen => exact .nowhere isOpen
  | @kept logPath logPlace _ isOpen writable text =>
    have hne : logPlace ≠ place := by
      intro heq
      exact hother logPath rfl (heq ▸ writable)
    refine .kept isOpen ((s.sameTree_put place bytes).writable writable) ?_
    rw [Store.drains_put, Store.file?_put_of_ne s bytes hne]
    exact text

end KeptLog

/-! ## The log of a simulation -/

open KeptLog Attempt

variable {r : SimulationRequest} {log : KeptLog (StateM World)} {trace : Trace} {w w' : World}

theorem inStep_of_openLog (h : (openLog r : Attempt (StateM World) _).Gives w log w') :
    InStep w'.store r.log log ∧ w.store.SameTree w'.store := by
  unfold openLog at h
  cases hlog : r.log with
  | none =>
    rw [hlog] at h
    cases h
    exact ⟨.nowhere fun _ => rfl, .refl _⟩
  | some path =>
    rw [hlog] at h
    obtain ⟨file?, between, hfile, hrest⟩ := gives_bind.1 h
    obtain ⟨opened, between', hcreate, hsome⟩ := gives_bind.1 hfile
    obtain ⟨place, hplace, rfl, rfl⟩ := gives_create.1 hcreate
    cases hsome
    cases hrest
    have htree := w.store.sameTree_put place .empty
    refine ⟨.kept (fun _ => rfl) (htree.writable hplace) fun hdrain => ?_, htree⟩
    rw [Store.drains_put] at hdrain
    exact Store.file?_put _ hdrain

/-- Whatever was logged is in the file when a simulation has run, and no directory was made. -/
theorem SimulationRequest.inStep_of_simulated
    (h : (r.simulated : Attempt (StateM World) _).Gives w (trace, log) w') :
    InStep w'.store r.log log ∧ w.store.SameTree w'.store := by
  unfold simulated at h
  obtain ⟨config, w₁, hconfig, h⟩ := gives_bind.1 h
  obtain ⟨⟨primary, secondary⟩, w₂, hcurves, h⟩ := gives_bind.1 h
  obtain ⟨opened, w₃, hopen, h⟩ := gives_bind.1 h
  obtain ⟨_, w₄, hreport, h⟩ := gives_bind.1 h
  obtain ⟨timely, w₅, htime, h⟩ := gives_bind.1 h
  obtain ⟨simulator, w₆, hsimulator, h⟩ := gives_bind.1 h
  obtain ⟨⟨run, duration⟩, w₇, hrun, h⟩ := gives_bind.1 h
  obtain ⟨⟨trace', log'⟩, w₈, hlog, h⟩ := gives_bind.1 h
  obtain ⟨_, w₉, hreport', h⟩ := gives_bind.1 h
  obtain ⟨hstep, htree⟩ := inStep_of_openLog hopen
  obtain ⟨rfl, rfl⟩ := gives_onTime.1 htime
  have htimely := hstep.atTime w₅.clock
  have hlogged := Run.log_open run config duration htimely.isOpen
  obtain ⟨-, rfl, hw₈⟩ := (gives_perform hlogged).1 hlog
  have hbefore : w₂.store = w.store :=
    ((r.workload.leavesStore_curves r.column).eq hcurves).trans (r.leavesStore_configuration.eq hconfig)
  have hbetween : w₇.store = w₃.store :=
    ((leavesStore_timed _).eq hrun).trans
      (((leavesStore_ofFault _).eq hsimulator).trans ((leavesStore_report _).eq hreport))
  have hafter : w₉.store = w₈.store := (leavesStore_report _).eq hreport'
  cases h
  rw [hafter, hw₈, hbetween, ← hbefore]
  refine ⟨htimely.perform (Emitter.isOpen_wroteAll htimely.isOpen _) ?_,
    htree.trans (sameTree_store _ _)⟩
  rw [Emitter.lines_wroteAll htimely.isOpen]
  exact List.prefix_append _ _

end Interleave
