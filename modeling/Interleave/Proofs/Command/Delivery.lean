import Interleave.Command.Perform
import Interleave.Proofs.Command.KeptLog
import Interleave.Proofs.Store.Directories

/-!
# Delivering a trace

A trace goes to a file, or to a file and an index, which lists it with the log of the run. A delivery
comes to a good end exactly when every step of it can be taken, and then its steps say what it has done to
the world. The log of a run names the trace after the trace is written and before the log is listed.

Results:
* `performWords_eq_zero_iff`: a command ends with status 0 when its request comes to a good end.
* `gives_deliverIndexed`: what a delivery with an index does, and when it succeeds.
-/
namespace Interleave

open Desk Attempt KeptLog

variable {r : SimulationRequest} {log : KeptLog (StateM World)} {trace : Trace} {w w' : World}
  {path index : String} {words : List String}

/-! ## The status of a command -/

theorem run_performWords_simulate (h : Request.simulation? words = some r) (w : World) :
    (performWords ("simulate" :: words) : StateM World UInt32).run w =
      (conclude ((r.perform : Attempt (StateM World) Unit).run.run w).1 : StateM World UInt32).run
        ((r.perform : Attempt (StateM World) Unit).run.run w).2 := by
  have hwords : Request.ofWords? ("simulate" :: words) = some (.simulate r) := by
    rw [Request.ofWords?, h]
    rfl
  unfold performWords
  rw [hwords]
  rfl

/-- Status 0 is a good end. -/
theorem performWords_eq_zero_iff (h : Request.simulation? words = some r) :
    (performWords ("simulate" :: words) : StateM World UInt32).run w = (0, w') ↔
      Gives r.perform w () w' := by
  rw [run_performWords_simulate h, Gives]
  obtain ⟨result, between⟩ := (r.perform : Attempt (StateM World) Unit).run.run w
  cases result with
  | error failure =>
    constructor
    · intro h
      cases h
    · intro h
      cases h
  | ok _ =>
    constructor
    · intro h
      cases h
      rfl
    · intro h
      cases h
      rfl

/-- Any other end has status 1. -/
theorem performWords_eq_one (h : Request.simulation? words = some r)
    (hfails : ∀ w', ¬ Gives r.perform w () w') :
    ((performWords ("simulate" :: words) : StateM World UInt32).run w).1 = 1 := by
  rw [run_performWords_simulate h]
  cases hresult : (r.perform : Attempt (StateM World) Unit).run.run w with
  | mk result w' =>
    cases result with
    | error failure => rfl
    | ok _ => exact absurd hresult (hfails w')

/-! ## Listing what was written -/

namespace Emitter

/-- The entry that names a written file. -/
def naming (e : Emitter) (path : String) : LogEntry :=
  (e.draft .info "artifacts_written").withArtifacts [path]

/-- The emitter when it has handed the line of this entry to its sink. -/
def named (e : Emitter) (path : String) : Emitter :=
  { e.next.2 with sink := (e.sink.write (e.naming path).line).2 }

theorem nameFile_run (path : String) (e : Emitter) :
    (nameFile path).run.run e = ((e.sink.write (e.naming path).line).1, e.named path) := by
  have hentry : (e.naming path).traceId ≠ "" := traceId_ne_empty _ _ _
  change (emitEntry (e.naming path)).run.run e.next.2 = _
  rw [emitEntry_run e.next.2 hentry, write_run]
  rfl

end Emitter

/-- The index with the log of a simulation, if there is one. -/
def SimulationRequest.withLog (r : SimulationRequest) (listed : ArtifactIndex) (s : Store) :
    Except IoFault ArtifactIndex :=
  match r.log with
  | none => .ok listed
  | some path => listed.addFile s path "log_jsonl"

theorem gives_listLog {listed listed' : ArtifactIndex} : Gives (r.listLog listed) w listed' w' ↔
    r.withLog listed w.store = .ok listed' ∧ w' = w := by
  unfold SimulationRequest.listLog SimulationRequest.withLog
  cases r.log with
  | none => simp [gives_pure]
  | some path =>
    unfold ArtifactIndex.addFile
    simp only [gives_bind, gives_read, gives_pure]
    cases w.store.read path <;> simp [Except.map]

/-- The log when it has named a written file, which its own file does not have yet. -/
def KeptLog.naming (log : KeptLog (StateM World)) (path : String) : KeptLog (StateM World) :=
  { log with emitter := log.emitter.named path }

/-- An open log names a written file. -/
theorem gives_nameFile {log' : KeptLog (StateM World)} (hopen : log.emitter.sink.IsOpen) :
    (log.perform (Emitter.nameFile path).io).Gives w ((), log') w' ↔
      log' = (log.naming path).flushed ∧
        w' = { w with store := (log.naming path).store w.store } := by
  have hrun : (Emitter.nameFile path).io.run.run log.emitter = (.ok (), log.emitter.named path) := by
    rw [Logging.run_adapt, Emitter.nameFile_run, Emitter.write_of_isOpen hopen]
    rfl
  rw [gives_perform hrun]
  exact ⟨And.right, fun h => ⟨rfl, h⟩⟩

/-- A trace is listed with its log as the log is when it has named the trace. -/
theorem gives_deliverIndexed (hopen : log.emitter.sink.IsOpen) :
    Gives (deliverIndexed r trace log path index) w () w' ↔ ∃ place logged listed made indexPlace,
      w.store.writable path = .ok place ∧
      logged = ((log.atTime w.clock).naming path).store
        (w.store.put place (trace.render r.format).toUTF8) ∧
      r.withLog (.addTrace { runId := r.runId, generated := w.time } path r.format
        (trace.render r.format)) logged = .ok listed ∧
      logged.makeParents index = .ok made ∧ made.writable index = .ok indexPlace ∧
      w' = { w with
        store := made.put indexPlace listed.text.toUTF8
        reports := w.reports.push s!"Artifact index: {index}" } := by
  have hopen' (time : Clock) : (log.atTime time).emitter.sink.IsOpen := hopen
  unfold deliverIndexed
  constructor
  · intro h
    obtain ⟨time, w₁, htime, h⟩ := gives_bind.1 h
    obtain ⟨_, w₂, hwrite, h⟩ := gives_bind.1 h
    obtain ⟨timely, w₃, honTime, h⟩ := gives_bind.1 h
    obtain ⟨⟨_, log'⟩, w₄, hlog, h⟩ := gives_bind.1 h
    obtain ⟨listed, w₅, hlisted, h⟩ := gives_bind.1 h
    obtain ⟨_, w₆, hindex, h⟩ := gives_bind.1 h
    obtain ⟨rfl, rfl⟩ := gives_now.1 htime
    obtain ⟨place, hplace, rfl⟩ := gives_write.1 hwrite
    obtain ⟨rfl, rfl⟩ := gives_onTime.1 honTime
    obtain ⟨rfl, rfl⟩ := (gives_nameFile (hopen' _)).1 hlog
    obtain ⟨hlisted', rfl⟩ := gives_listLog.1 hlisted
    obtain ⟨made, indexPlace, hmade, hindexPlace, rfl⟩ := gives_writeOutput.1 hindex
    obtain rfl := gives_report.1 h
    exact ⟨place, _, listed, made, indexPlace, hplace, rfl, hlisted', hmade, hindexPlace, rfl⟩
  · intro ⟨place, logged, listed, made, indexPlace, hplace, hlogged, hlisted, hmade, hindexPlace, hw⟩
    subst hlogged
    refine gives_bind.2 ⟨_, _, gives_now.2 ⟨rfl, rfl⟩, ?_⟩
    refine gives_bind.2 ⟨(), _, gives_write.2 ⟨place, hplace, rfl⟩, ?_⟩
    refine gives_bind.2 ⟨_, _, gives_onTime.2 ⟨rfl, rfl⟩, ?_⟩
    refine gives_bind.2 ⟨((), _), _, (gives_nameFile (hopen' _)).2 ⟨rfl, rfl⟩, ?_⟩
    refine gives_bind.2 ⟨_, _, gives_listLog.2 ⟨hlisted, rfl⟩, ?_⟩
    refine gives_bind.2 ⟨(), _, gives_writeOutput.2 ⟨made, indexPlace, hmade, hindexPlace, rfl⟩, ?_⟩
    rw [hw]
    exact gives_report.2 rfl

theorem gives_bind_report {x : Attempt (StateM World) Unit} {line : String} :
    Gives (x >>= fun _ => report line) w () w' ↔ ∃ between, x.Gives w () between ∧
      w' = { between with reports := between.reports.push line } := by
  rw [gives_bind]
  constructor
  · intro ⟨_, between, hx, hreport⟩
    exact ⟨between, hx, gives_report.1 hreport⟩
  · intro ⟨between, hx, hw⟩
    exact ⟨(), between, hx, gives_report.2 hw⟩

theorem gives_deliver_file (hdestination : r.destination = .file path) :
    Gives (deliver r trace log) w () w' ↔ ∃ between,
      Gives (writeOutput path (trace.render r.format)) w () between ∧
      w' = { between with reports := between.reports.push s!"Trace written to {path}" } := by
  unfold deliver
  rw [hdestination]
  exact gives_bind_report

theorem gives_deliver_indexed (hdestination : r.destination = .indexed path index) :
    Gives (deliver r trace log) w () w' ↔ ∃ between,
      Gives (deliverIndexed r trace log path index) w () between ∧
      w' = { between with reports := between.reports.push s!"Trace written to {path}" } := by
  unfold deliver
  rw [hdestination]
  exact gives_bind_report

/-- What a simulation with an index has done when it comes to a good end. -/
theorem indexed_of_gives_perform (hdestination : r.destination = .indexed path index)
    (h : Gives r.perform w () w') : ∃ trace log between delivered,
      Gives r.simulated w (trace, log) between ∧
      Gives (deliverIndexed r trace log path index) between () delivered ∧
      w' = { delivered with reports := delivered.reports.push s!"Trace written to {path}" } := by
  obtain ⟨⟨trace, log⟩, between, hsimulated, hdeliver⟩ := gives_bind.1 h
  obtain ⟨delivered, hindexed, hw⟩ := (gives_deliver_indexed hdestination).1 hdeliver
  exact ⟨trace, log, between, delivered, hsimulated, hindexed, hw⟩

/-! ## A command line to look at -/

/-- A machine with the table of a flat curve. -/
def World.flat : World where
  store := { Store.machine with
    files := [(["tmp", "work", "flat.csv"], "DRAM Ratio,BW\n0,500\n100,500\n".toUTF8)] }

namespace SimulationRequest

/-- A command line that runs this curve, logs the run and writes the trace to a file. -/
def flatWords (output : String) : List String :=
  ["--primary=flat.csv", "--format=csv", "--output=" ++ output, "--log=run.jsonl"]

/-- What such a command line asks for. -/
def flat (destination : Destination) : SimulationRequest where
  workload := .recorded "flat.csv" none
  column := CurveTable.bandwidthColumn
  config := none
  changes := {}
  destination := destination
  format := .csv
  log := some "run.jsonl"
  runId := "dmi-sim"

end SimulationRequest

end Interleave
