import Interleave.Fault
import Interleave.Store
import Interleave.Time.Utc
/-!
# The desk of a command

`Desk` lists what a command may do to the world: read and write files, print, report and ask for the
time. `World` is a desk of its own, in which all of it is a value; so what a command does is a function
of the world that it starts in.
-/
namespace Interleave

/-- What a command may do in a monad. -/
class Desk (m : Type → Type) where
  /-- A file that is open for writing. -/
  OpenFile : Type
  /-- Reads a whole file. -/
  read : String → m (Except IoFault ByteArray)
  /-- Replaces a whole file. -/
  write : String → ByteArray → m (Except IoFault Unit)
  /-- Makes the directories above a path. -/
  makeParents : String → m (Except IoFault Unit)
  /-- Empties a file and keeps it open. -/
  create : String → m (Except IoFault OpenFile)
  /-- Writes into an open file, behind what was written into it before. -/
  append : OpenFile → ByteArray → m (Except IoFault OpenFile)
  /-- Prints a text and a line end. -/
  print : String → m Unit
  /-- Tells the user a line. -/
  report : String → m Unit
  /-- An environment variable. -/
  environment : String → m (Option String)
  /-- The time, as logs write it. -/
  now : m String
  /-- The clock that the lines of a log are stamped by. -/
  clock : m Clock
  /-- Computes a value and counts the milliseconds. -/
  timed {α : Type} : (Unit → α) → m (α × Nat)

/-- The desk serves steps that may fail as well. -/
instance {ε : Type} {m : Type → Type} [Monad m] [Desk m] : Desk (ExceptT ε m) where
  OpenFile := Desk.OpenFile m
  read path := ExceptT.lift (Desk.read path)
  write path bytes := ExceptT.lift (Desk.write path bytes)
  makeParents path := ExceptT.lift (Desk.makeParents path)
  create path := ExceptT.lift (Desk.create path)
  append f bytes := ExceptT.lift (Desk.append f bytes)
  print text := ExceptT.lift (Desk.print text)
  report line := ExceptT.lift (Desk.report line)
  environment name := ExceptT.lift (Desk.environment name)
  now := ExceptT.lift Desk.now
  clock := ExceptT.lift Desk.clock
  timed f := ExceptT.lift (Desk.timed f)

/-- Everything that a command can change or ask for. -/
structure World where
  store : Store := {}
  environment : List (String × String) := []
  time : String := ""
  /-- Lines of a log bear the readings of this clock. -/
  clock : Clock := time
  printed : String := ""
  /-- The lines told to the user. -/
  reports : Array String := #[]

namespace World

/-- Changes the store, if that succeeds. -/
def change (f : Store → Except IoFault Store) : StateM World (Except IoFault Unit) := fun w =>
  match f w.store with
  | .ok store => (.ok (), { w with store })
  | .error fault => (.error fault, w)

/-- An open file of a store: its place, and how much was written into it. -/
structure OpenPlace where
  place : Place
  offset : Nat := 0

/-- Empties a file and opens it. -/
def create (path : String) : StateM World (Except IoFault OpenPlace) := fun w =>
  match w.store.writable path with
  | .ok place => (.ok { place }, { w with store := w.store.put place .empty })
  | .error fault => (.error fault, w)

/-- Writes behind what was written before. -/
def append (f : OpenPlace) (bytes : ByteArray) : StateM World (Except IoFault OpenPlace) := fun w =>
  (.ok { f with offset := f.offset + bytes.size },
    { w with store := w.store.putAt f.place f.offset bytes })

instance : Desk (StateM World) where
  OpenFile := OpenPlace
  read path := do pure ((← get).store.read path)
  write path bytes := change (·.write path bytes)
  makeParents path := change (·.makeParents path)
  create := create
  append := append
  print text := modify fun w => { w with printed := w.printed ++ text ++ "\n" }
  report line := modify fun w => { w with reports := w.reports.push line }
  environment name := do pure ((← get).environment.lookup name)
  now := do pure (← get).time
  clock := do pure (← get).clock
  timed f := pure (f (), 0)

end World

/-- Why a command fails. -/
inductive Failure where
  | fault (fault : Fault)
  /-- A fault of the controller itself, outside of any file. -/
  | control (fault : ControlFault)
  /-- A log that breaks its schema so many times. -/
  | violations (count : Nat)
  deriving DecidableEq, Repr

/-- The failure as the command line shows it. -/
def Failure.shape : Failure → String
  | fault f => f.shape
  | control f => f.shape
  | violations count => Text.quote s!"{count} schema violations"

/-- What a command does, which may fail. -/
abbrev Attempt (m : Type → Type) := ExceptT Failure m

namespace Attempt

variable {m : Type → Type} [Monad m] {α : Type}

/-- A step at the desk that may fail. -/
def file (step : m (Except IoFault α)) : Attempt m α :=
  ExceptT.mk do
    pure ((← step).mapError fun f => .fault (.io f))

/-- A result or its fault. -/
def ofFault (result : Except Fault α) : Attempt m α := ExceptT.mk (pure (result.mapError .fault))

/-- A result or the fault of the controller. -/
def ofControl (result : Except ControlFault α) : Attempt m α :=
  ExceptT.mk (pure (result.mapError .control))

end Attempt

end Interleave
