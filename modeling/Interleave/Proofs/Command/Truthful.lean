import Interleave.Proofs.Command.Delivery

/-!
# Truthful indexes

An index is written last: the trace was written before, and the log has got its last line and is up to date
when it is read for the index. If output, index and log are three files that keep what is written to them,
nothing is written to a file after it is listed, so every digest and size in the index is that of a file as
the command leaves it.

Results:
* `reads_of_deliverIndexed`: the index is the one that is made of the files at the end.
* `index_truthful`: a command that ends with status 0 leaves a truthful index.
-/
namespace Interleave

open Attempt

/-- The paths lead to files of their own, and what is written to them stays there. -/
structure Store.Separate (s : Store) (paths : List String) : Prop where
  apart : paths.Pairwise fun path other => s.writable path ≠ s.writable other
  stays : ∀ path ∈ paths, ∀ drain ∈ s.drains, s.writable path ≠ .ok drain

/-- The file is there, and its digest and its size are those of the artifact. -/
def Artifact.Describes (a : Artifact) (s : Store) : Prop :=
  ∃ bytes, s.read a.path = .ok bytes ∧ a.sha256 = Sha256.hex bytes ∧
    ∀ size, a.size = some size → size = bytes.size

variable {r : SimulationRequest} {log : KeptLog (StateM World)} {trace : Trace} {w w' : World}
  {s t : Store} {path index : String} {words : List String} {place : Place}

/-! ## The log -/

/-- The log ends with the line that names the trace. -/
theorem Emitter.text_named {e : Emitter} (hopen : e.sink.IsOpen) (path : String) :
    (e.named path).sink.text = e.sink.text ++ (e.naming path).line ++ "\n" := by
  unfold named Sink.text
  rw [write_of_isOpen hopen]
  simp [String.join_append, String.append_assoc]

theorem KeptLog.InStep.naming (h : log.InStep s r.log) (path : String) :
    InStep ((log.naming path).store s) r.log (log.naming path).flushed := by
  have hwrite := Emitter.write_of_isOpen h.isOpen
  have hopen : (log.emitter.named path).sink.IsOpen := by
    unfold Emitter.named
    rw [hwrite]
    exact h.isOpen
  have hlines : log.emitter.sink.lines.toList <+: (log.emitter.named path).sink.lines.toList := by
    unfold Emitter.named
    rw [hwrite, Array.toList_push]
    exact List.prefix_append _ _
  exact h.perform hopen hlines

/-- A written file is as it was written when the log, which is kept elsewhere, has named it. -/
theorem KeptLog.InStep.read_named (h : log.InStep s r.log) (hwritable : s.writable path = .ok place)
    (hdrain : place ∉ s.drains) (hother : ∀ logPath, r.log = some logPath → s.writable logPath ≠ .ok place)
    (bytes : ByteArray) : ((log.naming path).store (s.put place bytes)).read path = .ok bytes := by
  have hplace := ((s.sameTree_put place bytes).trans (sameTree_store (log.naming path) _)).writable hwritable
  have hfile : ((log.naming path).store (s.put place bytes)).file? place = some bytes := by
    obtain ⟨-, hstore⟩ | ⟨logPath, logPlace, held, hlog, hlogPlace, -, hstore⟩ :=
      h.store_cases (log.emitter.named path) (s.put place bytes)
    · exact (congrArg (Store.file? · place) hstore).trans (Store.file?_put bytes hdrain)
    · have hne : place ≠ logPlace := fun heq => hother logPath hlog (heq ▸ hlogPlace)
      refine (congrArg (Store.file? · place) hstore).trans ?_
      rw [Store.file?_put_of_ne _ _ hne, Store.file?_put bytes hdrain]
  rw [Store.read_of_writable hplace, hfile]

/-- The file of a log that is kept elsewhere than the file that it has named. -/
theorem KeptLog.InStep.read_log (h : log.InStep s r.log)
    (hother : ∀ logPath, r.log = some logPath → s.writable logPath ≠ .ok place) (bytes : ByteArray)
    {logPath : String} (hlog : r.log = some logPath) : ∃ logPlace,
      s.writable logPath = .ok logPlace ∧
      (((log.naming path).store (s.put place bytes)).file? logPlace).isSome ∧
      (logPlace ∉ s.drains → ((log.naming path).store (s.put place bytes)).read logPath =
        .ok (log.emitter.named path).sink.text.toUTF8) := by
  have hnamed := (h.put bytes hother).naming path
  rw [hlog] at hnamed
  obtain ⟨logPlace, hwritable, hfile, htext⟩ := hnamed.file
  have htree := (s.sameTree_put place bytes).trans (sameTree_store (log.naming path) _)
  refine ⟨logPlace, htree.writable_iff.1 hwritable, hfile, fun hdrain => ?_⟩
  rw [drains_store, Store.drains_put] at htext
  rw [Store.read_of_writable hwritable, htext hdrain, emitter_flushed]
  rfl

theorem KeptLog.isSome_store (log : KeptLog (StateM World)) (h : (s.file? place).isSome) :
    ((log.store s).file? place).isSome := by
  unfold store
  cases log.file with
  | none => exact h
  | some opened => exact (Store.isSome_file?_put ..).2 (.inr h)

/-! ## The files at the end -/

theorem SimulationRequest.withLog_congr (listed : ArtifactIndex)
    (h : ∀ logPath, r.log = some logPath → s.read logPath = t.read logPath) :
    r.withLog listed s = r.withLog listed t := by
  unfold withLog
  cases hlog : r.log with
  | none => rfl
  | some logPath =>
    dsimp only
    rw [ArtifactIndex.addFile, ArtifactIndex.addFile, h logPath hlog]

/-- At the end the index, the trace and the log are there whole, and the index is the one that is made of
them. -/
theorem reads_of_deliverIndexed (hstep : log.InStep w.store r.log)
    (h : Gives (deliverIndexed r trace log path index) w () w')
    (hseparate : w'.store.Separate (path :: index :: r.log.toList)) :
    ∃ listed, w'.store.read index = .ok listed.text.toUTF8 ∧
      w'.store.read path = .ok (trace.render r.format).toUTF8 ∧
      r.withLog (.addTrace { runId := r.runId, generated := w.time } path r.format
        (trace.render r.format)) w'.store = .ok listed ∧
      ∀ logPath, r.log = some logPath → w'.store.read logPath =
        .ok ((log.atTime w.clock).emitter.named path).sink.text.toUTF8 := by
  obtain ⟨place, logged, listed, made, indexPlace, hplace, hlogged, hlisted, hmade, hindexPlace, rfl⟩ :=
    (gives_deliverIndexed hstep.isOpen).1 h
  obtain ⟨hapart, hstays⟩ := hseparate
  dsimp only at hapart hstays ⊢
  rw [List.pairwise_cons, List.pairwise_cons] at hapart
  obtain ⟨hpathApart, hindexApart, -⟩ := hapart
  have htree : w.store.SameTree logged :=
    hlogged ▸ (w.store.sameTree_put place _).trans (KeptLog.sameTree_store _ _)
  have hdrains : logged.drains = w.store.drains := by
    rw [hlogged, KeptLog.drains_store, Store.drains_put]
  have hmore := Store.extends_of_makeParents hmade
  rw [Store.drains_put, hmore.drains, hdrains] at hstays
  have hfile : (logged.file? place).isSome :=
    hlogged ▸ KeptLog.isSome_store _ ((Store.isSome_file?_put ..).2 (.inl rfl))
  have hplace' := htree.writable hplace
  have hpath := hmore.writable_put hplace' hfile indexPlace listed.text.toUTF8
  -- the paths are apart at the end, and they led to the same files before the trace was written
  have helsewhere (logPath : String) (hlog : r.log = some logPath) :
      w.store.writable logPath ≠ .ok place := by
    intro hsame
    refine hpathApart logPath (by simp [hlog]) ?_
    rw [hpath, hmore.writable_put (htree.writable hsame) hfile]
  have hreadPath : (made.put indexPlace listed.text.toUTF8).read path =
      .ok (trace.render r.format).toUTF8 := by
    rw [hmore.read_put hplace' hfile hindexPlace (hpathApart index List.mem_cons_self), hlogged]
    have hstay (hdrain : place ∈ w.store.drains) := hstays path List.mem_cons_self place hdrain hpath
    exact (hstep.atTime w.clock).read_named hplace hstay helsewhere _
  have hreadIndex : (made.put indexPlace listed.text.toUTF8).read index = .ok listed.text.toUTF8 := by
    have hindex := (made.sameTree_put indexPlace listed.text.toUTF8).writable hindexPlace
    have hstay (hdrain : indexPlace ∈ made.drains) :=
      hstays index (by simp) indexPlace (hdrains ▸ hmore.drains ▸ hdrain) hindex
    rw [Store.read_of_writable hindex, Store.file?_put _ hstay]
  have hreadLog (logPath : String) (hlog : r.log = some logPath) :
      (made.put indexPlace listed.text.toUTF8).read logPath = logged.read logPath ∧
        logged.read logPath = .ok ((log.atTime w.clock).emitter.named path).sink.text.toUTF8 := by
    obtain ⟨logPlace, hlogPlace, hthere, hread⟩ :=
      (hstep.atTime w.clock).read_log helsewhere (trace.render r.format).toUTF8 hlog
    rw [← hlogged] at hthere hread
    have hlater := htree.writable hlogPlace
    have hindexApart' := (hindexApart logPath (by simp [hlog])).symm
    refine ⟨hmore.read_put hlater hthere hindexPlace hindexApart', hread fun hdrain => ?_⟩
    exact hstays logPath (by simp [hlog]) logPlace hdrain (hmore.writable_put hlater hthere _ _)
  refine ⟨listed, hreadIndex, hreadPath, ?_, fun logPath hlog => ?_⟩
  · rw [← hlisted]
    exact r.withLog_congr _ fun logPath hlog => (hreadLog logPath hlog).1
  · rw [(hreadLog logPath hlog).1, (hreadLog logPath hlog).2]

/-- The index of a simulation that ends with status 0 describes the files as they are then: the trace, and
the log, which has its last line. -/
theorem index_truthful (hwords : Request.simulation? words = some r)
    (hdestination : r.destination = .indexed path index)
    (hrun : (performWords ("simulate" :: words) : StateM World UInt32).run w = (0, w'))
    (hseparate : w'.store.Separate (path :: index :: r.log.toList)) :
    ∃ listed : ArtifactIndex, w'.store.read index = .ok listed.text.toUTF8 ∧ listed.runId = r.runId ∧
      listed.artifacts.map (·.path) = path :: r.log.toList ∧
      (∀ a ∈ listed.artifacts, a.Describes w'.store) ∧
      ∀ logPath, r.log = some logPath → ∃ (text : String) (entry : LogEntry),
        w'.store.read logPath = .ok (text ++ entry.line ++ "\n").toUTF8 ∧
        entry.event = "artifacts_written" ∧ entry.artifacts = some [path] ∧
        ∃ a ∈ listed.artifacts, a.path = logPath ∧
          a.size = some (text ++ entry.line ++ "\n").toUTF8.size := by
  obtain ⟨trace, log, between, delivered, hsimulated, hdelivered, rfl⟩ :=
    indexed_of_gives_perform hdestination ((performWords_eq_zero_iff hwords).1 hrun)
  obtain ⟨hstep, -⟩ := r.inStep_of_simulated hsimulated
  obtain ⟨listed, hindex, hpath, hlisted, hlogged⟩ := reads_of_deliverIndexed hstep hdelivered hseparate
  have htrace : (⟨path, r.format.kind, Sha256.hex (trace.render r.format).toUTF8, none, none⟩ :
      Artifact).Describes delivered.store := ⟨_, hpath, rfl, nofun⟩
  unfold SimulationRequest.withLog at hlisted
  refine ⟨listed, hindex, ?_⟩
  cases hlog : r.log with
  | none =>
    rw [hlog] at hlisted
    cases hlisted
    exact ⟨rfl, rfl, List.forall_mem_singleton.2 htrace, nofun⟩
  | some logPath =>
    have hread := hlogged logPath hlog
    rw [Emitter.text_named (hstep.atTime between.clock).isOpen] at hread
    rw [hlog] at hlisted
    dsimp only at hlisted
    rw [ArtifactIndex.addFile, hread] at hlisted
    cases hlisted
    refine ⟨rfl, rfl, List.forall_mem_cons.2 ⟨htrace, List.forall_mem_singleton.2 ?_⟩, ?_⟩
    · exact ⟨_, hread, rfl, fun _ hsize => (Option.some.inj hsize).symm⟩
    · intro _ hsame
      cases hsame
      exact ⟨_, _, hread, rfl, rfl, _, List.mem_cons_of_mem _ List.mem_cons_self, rfl, rfl⟩

open SimulationRequest

/-- The index of a logged run of a flat curve is truthful. -/
theorem index_truthful_flat :
    let run := (performWords ("simulate" :: "--artifact-index=index.json" :: flatWords "trace.csv") :
      StateM World UInt32).run .flat
    run.1 = 0 ∧ run.2.store.Separate ["trace.csv", "index.json", "run.jsonl"] ∧
      ∃ listed : ArtifactIndex, run.2.store.read "index.json" = .ok listed.text.toUTF8 ∧
        listed.artifacts.map (·.path) = ["trace.csv", "run.jsonl"] ∧
        ∀ a ∈ listed.artifacts, a.Describes run.2.store := by
  intro run
  have hwords : Request.simulation? ("--artifact-index=index.json" :: flatWords "trace.csv") =
      some (flat (.indexed "trace.csv" "index.json")) := rfl
  have hstatus : run.1 = 0 := by decide +kernel
  have hseparate : run.2.store.Separate ["trace.csv", "index.json", "run.jsonl"] :=
    ⟨by decide +kernel, by decide +kernel⟩
  obtain ⟨listed, hindex, -, hpaths, hdescribes, -⟩ :=
    index_truthful hwords rfl (Prod.ext hstatus rfl) hseparate
  exact ⟨hstatus, hseparate, listed, hindex, hpaths, hdescribes⟩

end Interleave
