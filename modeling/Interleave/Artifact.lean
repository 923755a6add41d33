import Interleave.Digest.Sha256
import Interleave.Json.Printer
import Interleave.Store
import Interleave.Trace.Export
/-!
# Artifacts

An artifact index lists the files that a run has written, each with its digest. A file that cannot be
read or written leaves no entry behind.
-/
namespace Interleave

/-- A file that a run has written. -/
structure Artifact where
  path : String
  kind : String
  /-- The digest of the file in hexadecimal. -/
  sha256 : String
  size : Option Nat
  description : Option String
  deriving DecidableEq, Repr

def Artifact.toJson (a : Artifact) : Json :=
  .object
    ([("path", .string a.path), ("kind", .string a.kind), ("sha256", .string a.sha256)] ++
      Json.member? "size_bytes" .nat a.size ++ Json.member? "description" .string a.description)

/-- The files of a run. -/
structure ArtifactIndex where
  version : Nat := 1
  runId : String
  /-- The time at which the index was begun. -/
  generated : String
  artifacts : List Artifact := []
  deriving DecidableEq, Repr

namespace ArtifactIndex

def toJson (i : ArtifactIndex) : Json :=
  .object
    [("index_version", .nat i.version), ("run_id", .string i.runId),
      ("generated_utc", .string i.generated), ("artifacts", .array (i.artifacts.map Artifact.toJson))]

def text (i : ArtifactIndex) : String := i.toJson.pretty

/-- The index with one more artifact. -/
def add (i : ArtifactIndex) (path kind sha256 : String) : ArtifactIndex :=
  { i with artifacts := i.artifacts ++ [⟨path, kind, sha256, none, none⟩] }

/-- The index with a file of given bytes. -/
def addBytes (i : ArtifactIndex) (path kind : String) (bytes : ByteArray) : ArtifactIndex :=
  { i with artifacts := i.artifacts ++ [⟨path, kind, Sha256.hex bytes, some bytes.size, none⟩] }

/-- The index with a file of the store. -/
def addFile (i : ArtifactIndex) (store : Store) (path kind : String) :
    Except IoFault ArtifactIndex :=
  (store.read path).map (i.addBytes path kind)

/-- The index with a trace file of given text. -/
def addTrace (i : ArtifactIndex) (path : String) (format : TraceFormat) (body : String) :
    ArtifactIndex :=
  i.add path format.kind (Sha256.hex body.toUTF8)

/-- Writes a trace to a file and lists it. -/
def exportTrace (i : ArtifactIndex) (store : Store) (trace : Trace) (format : TraceFormat)
    (path : String) : Except IoFault (ArtifactIndex × Store) :=
  let body := trace.render format
  (store.write path body.toUTF8).map fun store => (i.addTrace path format body, store)

end ArtifactIndex

end Interleave
