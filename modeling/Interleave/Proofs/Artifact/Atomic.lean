import Interleave.Artifact
import Interleave.Proofs.Fallible

/-!
# Calls on an artifact index

An index is changed in place by calls that list a digest, a file that is read, or a trace that is written.
Reading and writing may fail (`FileSystem`), at any call and with any other change to the files. A call
touches the index behind the last step that may fail. So a call that fails leaves the index as it was, and
one that does not lists one entry behind those that are there.

A file is listed with the digest of what it holds when the call is done. For a file that is read this is
the digest of the bytes that were read, for a trace that of the text that was written, before it is read
back by anyone: that both are the same digest is what a file system promises.

Results:
* `Made.Runs.atomic`: one call lists one entry or nothing.
* `index_of_makeAll`: the index after any calls.
* `perform_store`: on a store the calls are `add`, `addFile` and `exportTrace`.
* `calls_atomic`: any calls, in any order, on any file system.
-/
namespace Interleave

/-- Files that are read and written whole, in a state `σ`. A step that fails may change the state. -/
structure FileSystem (σ ε : Type) where
  /-- The bytes of the file at a path. -/
  content : σ → String → Option ByteArray
  read : String → ExceptT ε (StateM σ) ByteArray
  write : String → ByteArray → ExceptT ε (StateM σ) Unit
  /-- What is read is what the file holds, and goes on to hold. -/
  content_read {path : String} {bytes : ByteArray} {s s' : σ} :
    (read path).run.run s = (.ok bytes, s') → content s path = some bytes ∧ content s' path = some bytes
  /-- What is written is what the file holds then. -/
  content_write {path : String} {bytes : ByteArray} {s s' : σ} :
    (write path bytes).run.run s = (.ok (), s') → content s' path = some bytes

namespace ArtifactIndex

variable {σ ε α : Type}

/-- Steps that may fail, with an index and the files in reach. Whatever they do to either stays done when
they fail. -/
abbrev Listing (σ ε : Type) := ExceptT ε (StateM (ArtifactIndex × σ))

/-- A step on the files. -/
def onFiles (x : ExceptT ε (StateM σ) α) : Listing σ ε α :=
  ExceptT.mk fun w => ((x.run.run w.2).1, w.1, (x.run.run w.2).2)

/-- A step on the index. -/
def onIndex (change : ArtifactIndex → ArtifactIndex) : Listing σ ε Unit :=
  modify fun w => (change w.1, w.2)

inductive Call where
  | add (path kind sha256 : String)
  | addFile (path kind : String)
  | exportTrace (trace : Trace) (format : TraceFormat) (path : String)

/-- A call, step by step. Only an export gives a digest back. -/
def Call.perform (fs : FileSystem σ ε) : Call → Listing σ ε (Option String)
  | add path kind sha256 => do
    onIndex (·.add path kind sha256)
    pure none
  | addFile path kind => do
    let bytes ← onFiles (fs.read path)
    onIndex (·.addBytes path kind bytes)
    pure none
  | exportTrace trace format path => do
    let body := trace.render format
    onFiles (fs.write path body.toUTF8)
    let digest := Sha256.hex body.toUTF8
    onIndex (·.add path format.kind digest)
    pure (some digest)

/-- The entry that a call lists if the files are `s` then. -/
inductive Call.Lists (fs : FileSystem σ ε) (s : σ) : Call → Artifact → Prop
  | add {path kind sha256 : String} : Lists fs s (.add path kind sha256) ⟨path, kind, sha256, none, none⟩
  | addFile {path kind : String} {bytes : ByteArray} : fs.content s path = some bytes →
      Lists fs s (.addFile path kind) ⟨path, kind, Sha256.hex bytes, some bytes.size, none⟩
  | exportTrace {trace : Trace} {format : TraceFormat} {path : String} {bytes : ByteArray} :
      fs.content s path = some bytes →
      Lists fs s (.exportTrace trace format path) ⟨path, format.kind, Sha256.hex bytes, none, none⟩

/-- The index with one more entry. -/
def append (i : ArtifactIndex) (entry : Artifact) : ArtifactIndex :=
  { i with artifacts := i.artifacts ++ [entry] }

/-- A call that was made, and the index and files around it. -/
structure Made (σ ε : Type) where
  call : Call
  before : ArtifactIndex × σ
  result : Except ε (Option String)
  after : ArtifactIndex × σ

namespace Made

/-- What the call did is what its steps do. -/
def Runs (fs : FileSystem σ ε) (m : Made σ ε) : Prop :=
  (m.call.perform fs).run.run m.before = (m.result, m.after)

/-- The call lists one entry and no more, or fails and lists nothing. -/
def Atomic (fs : FileSystem σ ε) (m : Made σ ε) : Prop :=
  match m.result with
  | .error _ => m.after.1 = m.before.1
  | .ok digest => ∃ entry, m.call.Lists fs m.after.2 entry ∧ m.after.1 = m.before.1.append entry ∧
      ∀ d ∈ digest, d = entry.sha256

/-- The entry that the call has listed. -/
def entry? (m : Made σ ε) : Option Artifact :=
  match m.result with
  | .error _ => none
  | .ok _ => m.after.1.artifacts.getLast?

end Made

/-- Calls one after the other. -/
def makeAll (fs : FileSystem σ ε) : List Call → ArtifactIndex × σ → List (Made σ ε)
  | [], _ => []
  | call :: calls, w =>
    let done := (call.perform fs).run.run w
    ⟨call, w, done.1, done.2⟩ :: makeAll fs calls done.2

/-! ## One call -/

theorem run_onFiles_bind (x : ExceptT ε (StateM σ) α) {β : Type} (f : α → Listing σ ε β)
    (i : ArtifactIndex) (s : σ) :
    (onFiles x >>= f).run.run (i, s) = match x.run.run s with
      | (.ok a, s') => (f a).run.run (i, s')
      | (.error fault, s') => (.error fault, i, s') := by
  have honFiles : (onFiles x).run.run (i, s) = ((x.run.run s).1, i, (x.run.run s).2) := rfl
  rw [Fallible.run_bind, honFiles]
  obtain ⟨result, s'⟩ := x.run.run s
  cases result <;> rfl

section
variable {fs : FileSystem σ ε} {m : Made σ ε}

/-- A call lists one entry and no more, or fails and lists nothing. -/
theorem Made.Runs.atomic (h : m.Runs fs) : m.Atomic fs := by
  obtain ⟨call, ⟨i, s⟩, result, after⟩ := m
  change (call.perform fs).run.run (i, s) = (result, after) at h
  cases call with
  | add path kind sha256 =>
    cases h
    exact ⟨_, .add, rfl, nofun⟩
  | addFile path kind =>
    simp only [Call.perform, run_onFiles_bind] at h
    split at h
    · rename_i bytes s' hread
      cases h
      exact ⟨_, .addFile (fs.content_read hread).2, rfl, nofun⟩
    · cases h
      rfl
  | exportTrace trace format path =>
    simp only [Call.perform, run_onFiles_bind] at h
    split at h
    · rename_i done s' hwrite
      cases h
      exact ⟨_, .exportTrace (fs.content_write hwrite), rfl, by simp⟩
    · cases h
      rfl

/-- The entry that was listed is the one behind all others. -/
theorem Made.Atomic.entry?_cases (h : m.Atomic fs) :
    (m.entry? = none ∧ m.after.1 = m.before.1) ∨
      ∃ entry, m.entry? = some entry ∧ m.call.Lists fs m.after.2 entry ∧
        m.after.1 = m.before.1.append entry := by
  unfold Atomic at h
  unfold entry?
  split
  · rename_i heq
    rw [heq] at h
    exact .inl ⟨rfl, h⟩
  · rename_i heq
    rw [heq] at h
    obtain ⟨entry, hlists, hafter, -⟩ := h
    exact .inr ⟨entry, by simp [hafter, append], hlists, hafter⟩

/-- A file that is read and listed was there with these bytes before. -/
theorem Made.Runs.content_eq {path kind : String} {entry : Artifact} (h : m.Runs fs)
    (hcall : m.call = .addFile path kind) (hentry : m.entry? = some entry) :
    fs.content m.before.2 path = fs.content m.after.2 path := by
  obtain ⟨call, ⟨i, s⟩, result, after⟩ := m
  change (call.perform fs).run.run (i, s) = (result, after) at h
  subst hcall
  simp only [Call.perform, run_onFiles_bind] at h
  split at h
  · rename_i bytes s' hread
    cases h
    obtain ⟨hbefore, hafter⟩ := fs.content_read hread
    exact hbefore.trans hafter.symm
  · cases h
    cases hentry

end

/-! ## Calls one after the other -/

section
variable {fs : FileSystem σ ε} {calls : List Call} {w : ArtifactIndex × σ} {made later : List (Made σ ε)}
  {m : Made σ ε}

/-- The first call runs from the start, and the others from where it has come to. -/
theorem makeAll_eq_cons (h : makeAll fs calls w = m :: later) :
    m.Runs fs ∧ m.before = w ∧ ∃ rest, makeAll fs rest m.after = later := by
  cases calls with
  | nil => cases h
  | cons call calls =>
    cases h
    exact ⟨rfl, rfl, calls, rfl⟩

theorem runs_of_mem (h : m ∈ makeAll fs calls w) : m.Runs fs := by
  induction calls generalizing w with
  | nil => cases h
  | cons call calls ih =>
    rcases List.mem_cons.1 h with rfl | h
    · rfl
    · exact ih h

/-- The index after a call: behind the first entries those of all calls so far that have listed one. -/
theorem index_of_makeAll (h : makeAll fs calls w = made ++ m :: later) :
    m.after.1 = { w.1 with artifacts := w.1.artifacts ++ (made ++ [m]).filterMap Made.entry? } := by
  induction made generalizing calls w with
  | nil =>
    obtain ⟨hruns, hbefore, -⟩ := makeAll_eq_cons h
    rcases hruns.atomic.entry?_cases with ⟨hnone, hafter⟩ | ⟨entry, hsome, -, hafter⟩
    · simp [hnone, hafter, hbefore]
    · simp [hsome, hafter, hbefore, append]
  | cons first made ih =>
    obtain ⟨hruns, hbefore, rest, hrest⟩ := makeAll_eq_cons h
    rw [ih hrest]
    rcases hruns.atomic.entry?_cases with ⟨hnone, hafter⟩ | ⟨entry, hsome, -, hafter⟩
    · simp [hnone, hafter, hbefore]
    · simp [hsome, hafter, hbefore, append]

/-- A file that no call changes holds what it held. -/
theorem content_of_makeAll {path : String} (h : makeAll fs calls w = made ++ m :: later)
    (hkept : ∀ between ∈ made, fs.content between.after.2 path = fs.content between.before.2 path) :
    fs.content m.before.2 path = fs.content w.2 path := by
  induction made generalizing calls w with
  | nil => rw [(makeAll_eq_cons h).2.1]
  | cons first made ih =>
    rw [List.forall_mem_cons] at hkept
    obtain ⟨-, hbefore, rest, hrest⟩ := makeAll_eq_cons h
    rw [ih hrest hkept.2, hkept.1, hbefore]

end

/-! ## Digests of files -/

/-- The file that a call lists. A digest that is given is of no file. -/
def Call.file? : Call → Option String
  | add _ _ _ => none
  | addFile path _ => some path
  | exportTrace _ _ path => some path

/-- The digest of a file is that of the bytes that it holds. -/
theorem Call.Lists.sha256_eq {fs : FileSystem σ ε} {s : σ} {call : Call} {entry : Artifact} {path : String}
    (h : call.Lists fs s entry) (hfile : call.file? = some path) :
    (fs.content s path).map Sha256.hex = some entry.sha256 := by
  cases h with
  | add => cases hfile
  | addFile hcontent | exportTrace hcontent =>
    cases hfile
    rw [hcontent, Option.map_some]

section
variable {fs : FileSystem σ ε} {calls : List Call} {w : ArtifactIndex × σ}
  {made between later : List (Made σ ε)} {a b : Made σ ε} {path kind : String} {x y : Artifact}

theorem makeAll_suffix (h : makeAll fs calls w = made ++ later) :
    ∃ rest w', makeAll fs rest w' = later := by
  induction made generalizing calls w with
  | nil => exact ⟨calls, w, h⟩
  | cons first made ih =>
    obtain ⟨-, -, rest, hrest⟩ := makeAll_eq_cons h
    exact ih hrest

theorem Made.Runs.sha256_eq (h : a.Runs fs) (hfile : a.call.file? = some path)
    (hentry : a.entry? = some x) : (fs.content a.after.2 path).map Sha256.hex = some x.sha256 := by
  rcases h.atomic.entry?_cases with ⟨hnone, -⟩ | ⟨entry, hsome, hlists, -⟩
  · rw [hnone] at hentry
    cases hentry
  · rw [hsome] at hentry
    cases hentry
    exact hlists.sha256_eq hfile

/-- A file is listed with one digest as long as it holds the same bytes. -/
theorem sha256_eq_of_kept (h : makeAll fs calls w = made ++ a :: (between ++ b :: later))
    (ha : a.call.file? = some path) (hb : b.call = .addFile path kind)
    (hkept : ∀ m ∈ between, fs.content m.after.2 path = fs.content m.before.2 path)
    (hx : a.entry? = some x) (hy : b.entry? = some y) : x.sha256 = y.sha256 := by
  obtain ⟨rest, w', hfrom⟩ := makeAll_suffix h
  obtain ⟨hruns, -, rest', hlater⟩ := makeAll_eq_cons hfrom
  have hbruns : b.Runs fs := runs_of_mem (hlater ▸ by simp : b ∈ makeAll fs rest' a.after)
  have hkept := content_of_makeAll hlater hkept
  have hax := hruns.sha256_eq ha hx
  have hby := hbruns.sha256_eq (by rw [hb, Call.file?]) hy
  rw [← hbruns.content_eq hb hy, hkept, hax] at hby
  exact Option.some.inj hby

end

end ArtifactIndex

/-! ## The stores of the commands -/

/-- Stores that hold all that is written. -/
def Store.Lasting := { s : Store // s.drains = [] }

/-- A store as a file system. -/
def Store.fileSystem : FileSystem Store.Lasting IoFault where
  content s path := (s.1.read path).toOption
  read path := ExceptT.mk fun s => (s.1.read path, s)
  write path bytes := ExceptT.mk fun s =>
    match s.1.writable path with
    | .ok place => (.ok (), ⟨s.1.put place bytes, (s.1.drains_put place bytes).trans s.2⟩)
    | .error fault => (.error fault, s)
  content_read {path bytes s s'} h := by
    obtain ⟨hread, rfl⟩ := Prod.mk.inj h
    have hread : s.1.read path = .ok bytes := hread
    rw [hread]
    exact ⟨rfl, rfl⟩
  content_write {path bytes s s'} h := by
    change (match s.1.writable path with
      | .ok place => (.ok (), ⟨s.1.put place bytes, _⟩)
      | .error fault => (.error fault, s)) = (Except.ok (), s') at h
    split at h
    · rename_i place hplace
      cases h
      have hwrite : s.1.write path bytes = .ok (s.1.put place bytes) := by rw [Store.write, hplace]; rfl
      have hread := Store.read_write hwrite fun place _ => by rw [s.2]; exact List.not_mem_nil
      rw [hread]
      rfl
    · cases h

namespace ArtifactIndex

/-- A call on a store, all at once: what it gives back, and the index and the store after it. -/
def Call.onStore (i : ArtifactIndex) (s : Store) :
    Call → Except IoFault (Option String × ArtifactIndex × Store)
  | add path kind sha256 => .ok (none, i.add path kind sha256, s)
  | addFile path kind => (i.addFile s path kind).map (none, ·, s)
  | exportTrace trace format path =>
    (i.exportTrace s trace format path).map (some (Sha256.hex (trace.render format).toUTF8), ·)

/-- Step by step, a call on a store does what it does all at once, or fails and changes nothing. -/
theorem perform_store (call : Call) (i : ArtifactIndex) (s : Store.Lasting) :
    Prod.map id (Prod.map id Subtype.val) ((call.perform Store.fileSystem).run.run (i, s)) =
      match call.onStore i s.1 with
      | .ok (digest, i', s') => (.ok digest, i', s')
      | .error fault => (.error fault, i, s.1) := by
  cases call with
  | add path kind sha256 => rfl
  | addFile path kind =>
    have hrun : (Store.fileSystem.read path).run.run s = (s.1.read path, s) := rfl
    rw [Call.perform, run_onFiles_bind, hrun, Call.onStore, addFile]
    cases s.1.read path <;> rfl
  | exportTrace trace format path =>
    have hrun (bytes : ByteArray) : (Store.fileSystem.write path bytes).run.run s =
        match s.1.writable path with
        | .ok place => (.ok (), ⟨s.1.put place bytes, (s.1.drains_put place bytes).trans s.2⟩)
        | .error fault => (.error fault, s) := rfl
    rw [Call.perform, run_onFiles_bind, hrun, Call.onStore, exportTrace, Store.write]
    cases s.1.writable path <;> rfl

/-! ## All calls -/

/-- Whatever the calls and the files: a call that fails leaves the index as it was, and another appends one
entry, of its path and its kind, that has the digest of the bytes that its file then holds. So at any time
the index holds what it held at first and then the entries of the calls that did not fail. A file that was
listed and is listed again unchanged has the same digest twice. On stores the calls are `add`, `addFile`
and `exportTrace`. -/
theorem calls_atomic (fs : FileSystem σ ε) (calls : List Call) (i : ArtifactIndex) (s : σ) :
    (∀ m ∈ makeAll fs calls (i, s), m.Atomic fs) ∧
      (∀ made m later, makeAll fs calls (i, s) = made ++ m :: later → m.after.1 =
        { i with artifacts := i.artifacts ++ (made ++ [m]).filterMap Made.entry? }) ∧
      (∀ made a between b later path kind x y,
        makeAll fs calls (i, s) = made ++ a :: (between ++ b :: later) →
        a.call.file? = some path → b.call = .addFile path kind →
        (∀ m ∈ between, fs.content m.after.2 path = fs.content m.before.2 path) →
        a.entry? = some x → b.entry? = some y → x.sha256 = y.sha256) ∧
      ∀ (call : Call) (j : ArtifactIndex) (t : Store.Lasting),
        Prod.map id (Prod.map id Subtype.val) ((call.perform Store.fileSystem).run.run (j, t)) =
          match call.onStore j t.1 with
          | .ok (digest, j', t') => (.ok digest, j', t')
          | .error fault => (.error fault, j, t.1) :=
  ⟨fun _ hm => (runs_of_mem hm).atomic, fun _ _ _ h => index_of_makeAll h,
    fun _ _ _ _ _ _ _ _ _ h ha hb hkept hx hy => sha256_eq_of_kept h ha hb hkept hx hy, perform_store⟩

/-- A trace is exported, then once more to a directory that is not there, and its file is listed. -/
def mixedCalls : List Call :=
  let trace : Trace := ⟨[⟨0, .primary, 100, 0, 1.0, none⟩], none, none, none⟩
  [.exportTrace trace .csv "trace.csv", .exportTrace trace .json "missing/trace.json",
    .addFile "trace.csv" "table"]

/-- The second call fails and leaves the index as it was; the others list one digest. -/
theorem calls_atomic_mixed : ∃ a b c x y,
    makeAll Store.fileSystem mixedCalls ({ runId := "run", generated := "" }, ⟨{}, rfl⟩) = [a, b, c] ∧
      b.result = .error .notFound ∧ b.after.1 = a.after.1 ∧ c.after.1.artifacts = [x, y] ∧
      x.kind = "trace_csv" ∧ y.kind = "table" ∧ x.sha256 = y.sha256 := by
  refine ⟨_, _, _, _, _, rfl, rfl, rfl, rfl, rfl, rfl, ?_⟩
  exact (calls_atomic Store.fileSystem mixedCalls { runId := "run", generated := "" } ⟨{}, rfl⟩).2.2.1 []
    _ [_] _ [] "trace.csv" "table" _ _ rfl rfl rfl
    (List.forall_mem_singleton.2 rfl) rfl rfl

end ArtifactIndex

end Interleave
