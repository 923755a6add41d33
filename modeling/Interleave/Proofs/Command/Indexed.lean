import Interleave.Proofs.Command.Delivery

/-!
# A trace with an index and without

Without an index the directories above an output are made before the trace is written. With an index they
are not. So a command with an index fails where the output has no directory yet, although the same command
without an index succeeds. Where the directory is there, both write the same bytes, as long as the log is
not kept in the file of the output: with an index the log gets one more line after the trace is written.

Results:
* `same_output_with_index`: when a command with an index succeeds, and what it leaves at its output.
* `no_output_with_index`: a new directory, in which only the command without an index succeeds.
-/
namespace Interleave

open Attempt

variable {r : SimulationRequest} {log : KeptLog (StateM World)} {trace : Trace} {w w' : World}
  {s t : Store} {path index : String} {words words' : List String} {place : Place}

/-- When a file is written and the log names it, the index can be written as it could before. -/
theorem exists_listed (h : log.InStep s r.log) (listed : ArtifactIndex) {bytes : ByteArray}
    (hmade : (s.put place bytes).makeParents index = .ok t) {logged : Store}
    (hlogged : logged = (log.naming path).store (s.put place bytes)) :
    ∃ listed' made, r.withLog listed logged = .ok listed' ∧ logged.makeParents index = .ok made ∧
      t.SameTree made ∧ ∀ other, (∀ logPath, r.log = some logPath → s.writable logPath ≠ .ok other) →
        made.file? other = t.file? other := by
  unfold SimulationRequest.withLog
  obtain ⟨hnone, hstore⟩ | ⟨logPath, logPlace, held, hsome, hwritable, hfile, hstore⟩ :=
    h.store_cases (log.emitter.named path) (s.put place bytes)
  · obtain rfl : logged = s.put place bytes := hlogged.trans hstore
    rw [hnone]
    exact ⟨listed, t, rfl, hmade, .refl t, fun _ _ => rfl⟩
  · obtain rfl : logged = (s.put place bytes).put logPlace held := hlogged.trans hstore
    have htree := (s.sameTree_put place bytes).trans (Store.sameTree_put _ logPlace held)
    have hthere := (Store.isSome_file?_put s place logPlace bytes).2 (.inr hfile)
    obtain ⟨content, hread⟩ := Store.exists_read_of_writable (htree.writable hwritable)
      ((Store.isSome_file?_put _ logPlace logPlace held).2 (.inl rfl))
    refine ⟨listed.addBytes logPath "log_jsonl" content, t.put logPlace held, ?_, ?_,
      t.sameTree_put _ _, ?_⟩
    · rw [hsome]
      dsimp only
      rw [ArtifactIndex.addFile, hread]
      rfl
    · rw [Store.makeParents_put hthere, hmade]
      rfl
    · intro other hother
      refine Store.file?_put_of_ne t held fun heq => ?_
      exact hother logPath hsome (heq ▸ hwritable)

/-- Where the output can be written, so can the index, and what is at the output is the trace. -/
theorem exists_deliverIndexed {outPlace : Place} (hstep : log.InStep w.store r.log)
    (hout : w.store.writable path = .ok outPlace)
    (hparents : (w.store.put outPlace (trace.render r.format).toUTF8).makeParents index = .ok t)
    (hindex : t.writable index = .ok place) (hother : t.writable path ≠ .ok place) :
    ∃ w', Gives (deliverIndexed r trace log path index) w () w' ∧
      ((∀ logPath, r.log = some logPath → w.store.writable logPath ≠ .ok outPlace) →
        w'.store.read path = (w.store.put outPlace (trace.render r.format).toUTF8).read path) := by
  obtain ⟨listed, made, hlisted, hmade, hsame, hfiles⟩ := exists_listed (hstep.atTime w.clock)
    (.addTrace { runId := r.runId, generated := w.time } path r.format (trace.render r.format))
    hparents rfl
  refine ⟨_, (gives_deliverIndexed hstep.isOpen).2 ⟨outPlace, _, listed, made, place, hout, rfl,
    hlisted, hmade, hsame.writable hindex, rfl⟩, fun helsewhere => ?_⟩
  have hplace := (w.store.sameTree_put outPlace (trace.render r.format).toUTF8).writable hout
  have hmore := Store.extends_of_makeParents hparents
  have hplace' := hmore.writable hplace ((Store.isSome_file?_put ..).2 (.inl rfl))
  have hne : outPlace ≠ place := fun heq => hother (heq ▸ hplace')
  have hfinal := (hsame.trans (made.sameTree_put place listed.text.toUTF8)).writable hplace'
  rw [Store.read_of_writable hplace, Store.read_of_writable hfinal, Store.file?_put_of_ne made _ hne,
    hfiles outPlace helsewhere, hmore.file?]

/-- A simulation with an index needs an output that can be written before the run. -/
theorem writable_of_gives_perform (hdestination : r.destination = .indexed path index)
    (h : Gives r.perform w () w') : ∃ outPlace, w.store.writable path = .ok outPlace := by
  obtain ⟨_, _, _, _, hsimulated, hdelivered, -⟩ := indexed_of_gives_perform hdestination h
  obtain ⟨hstep, htree⟩ := r.inStep_of_simulated hsimulated
  obtain ⟨outPlace, -, -, -, -, hout, -⟩ := (gives_deliverIndexed hstep.isOpen).1 hdelivered
  exact ⟨outPlace, htree.writable_iff.1 hout⟩

/-- Where the output could be written before the run, the trace is written with an index as it is
without one. Elsewhere a command without an index makes the directories above its output, and a command
with an index fails. -/
theorem same_output_with_index (hplain : Request.simulation? words = some r)
    (hdestination : r.destination = .file path)
    (hindexed : Request.simulation? words' = some { r with destination := .indexed path index })
    (hrun : (performWords ("simulate" :: words) : StateM World UInt32).run w = (0, w'))
    (hparents : w'.store.makeParents index = .ok t) (hindex : t.writable index = .ok place)
    (hother : t.writable path ≠ .ok place) :
    ((∃ outPlace, w.store.writable path = .ok outPlace) → ∃ w'',
      (performWords ("simulate" :: words') : StateM World UInt32).run w = (0, w'') ∧
        ((∀ logPath, r.log = some logPath → w.store.writable logPath ≠ w.store.writable path) →
          w''.store.read path = w'.store.read path)) ∧
    ((∀ outPlace, w.store.writable path ≠ .ok outPlace) →
      ((performWords ("simulate" :: words') : StateM World UInt32).run w).1 = 1) := by
  constructor
  · intro ⟨outPlace, hwritable⟩
    obtain ⟨⟨trace, log⟩, between, hsimulated, hdeliver⟩ :=
      gives_bind.1 ((performWords_eq_zero_iff hplain).1 hrun)
    obtain ⟨hstep, htree⟩ := r.inStep_of_simulated hsimulated
    have hout := htree.writable hwritable
    obtain ⟨written, hwrite, rfl⟩ := (gives_deliver_file hdestination).1 hdeliver
    obtain ⟨above, outPlace', habove, hout', rfl⟩ := gives_writeOutput.1 hwrite
    -- the directories above the output are there, so the command without an index makes none
    rw [Store.makeParents_of_writable hout] at habove
    cases habove
    rw [hout] at hout'
    cases hout'
    obtain ⟨delivered, hdelivered, hsame⟩ :=
      exists_deliverIndexed (r := { r with destination := .indexed path index }) hstep hout hparents
        hindex hother
    refine ⟨_, (performWords_eq_zero_iff hindexed).2 (gives_bind.2 ⟨(trace, log), between, hsimulated,
      (gives_deliver_indexed rfl).2 ⟨delivered, hdelivered, rfl⟩⟩), fun helsewhere => ?_⟩
    refine hsame fun logPath hlog hwhere => helsewhere logPath hlog ?_
    rw [htree.writable_iff.1 hwhere, hwritable]
  · intro hnowhere
    refine performWords_eq_one hindexed fun final hgives => ?_
    obtain ⟨outPlace, hout⟩ := writable_of_gives_perform rfl hgives
    exact hnowhere outPlace hout

open SimulationRequest

/-- In a directory that is there, the trace is the same. -/
theorem same_output_with_index_flat :
    ((performWords ("simulate" :: flatWords "trace.csv") : StateM World UInt32).run .flat).1 = 0 ∧
    ∃ w, (performWords ("simulate" :: "--artifact-index=index.json" :: flatWords "trace.csv") :
        StateM World UInt32).run .flat = (0, w) ∧
      w.store.read "trace.csv" =
        ((performWords ("simulate" :: flatWords "trace.csv") : StateM World UInt32).run
          .flat).2.store.read "trace.csv" := by
  have hplain : Request.simulation? (flatWords "trace.csv") = some (flat (.file "trace.csv")) := rfl
  have hindexed : Request.simulation? ("--artifact-index=index.json" :: flatWords "trace.csv") =
      some (flat (.indexed "trace.csv" "index.json")) := rfl
  have hstatus : ((performWords ("simulate" :: flatWords "trace.csv") : StateM World UInt32).run
      .flat).1 = 0 := by decide +kernel
  have hparts : Path.parts "index.json" = [] ++ ["index.json"] := by decide +kernel
  have hindex : ((performWords ("simulate" :: flatWords "trace.csv") : StateM World UInt32).run
      .flat).2.store.writable "index.json" = .ok ["tmp", "work", "index.json"] := by decide +kernel
  have hother : ((performWords ("simulate" :: flatWords "trace.csv") : StateM World UInt32).run
      .flat).2.store.writable "trace.csv" ≠ .ok ["tmp", "work", "index.json"] := by decide +kernel
  obtain ⟨hthere, -⟩ := same_output_with_index hplain rfl hindexed (Prod.ext hstatus rfl)
    (Store.makeParents_eq hparts (by decide)) hindex hother
  obtain ⟨w, hrun, hsame⟩ := hthere ⟨["tmp", "work", "trace.csv"], by decide +kernel⟩
  refine ⟨hstatus, w, hrun, hsame ?_⟩
  intro logPath hlog
  cases hlog
  decide +kernel

/-- In a directory that is not there, a command without an index writes its trace and a command with an
index does not, although the index could be written. -/
theorem no_output_with_index :
    let plain := (performWords ("simulate" :: flatWords "new/trace.csv") : StateM World UInt32).run .flat
    let indexed := (performWords ("simulate" :: "--artifact-index=index.json" ::
      flatWords "new/trace.csv") : StateM World UInt32).run .flat
    plain.1 = 0 ∧ plain.2.store.writable "new/trace.csv" = .ok ["tmp", "work", "new", "trace.csv"] ∧
      plain.2.store.writable "index.json" = .ok ["tmp", "work", "index.json"] ∧
      indexed.1 = 1 ∧ indexed.2.store.writable "new/trace.csv" = .error .notFound := by
  decide +kernel

end Interleave
