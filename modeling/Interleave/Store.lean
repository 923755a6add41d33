import Interleave.Fault
import Interleave.Store.Path
/-!
# Stores

A store is a tree of files and directories, seen from a working directory. A path is followed part by
part, from the root if it is absolute: every part but the last has to be a directory, and the parent of
the root is the root. A name has at most 255 bytes and a path at most 4095. Some places are drains: they
take whatever is written and hold nothing.

Results:
* `Within.writable`: a path leads to the same file when there are more directories.
* `SameTree.writable_iff`: and whatever the files hold.
* `read_write`: a written file reads back, unless it is a drain.
-/
namespace Interleave

/-- A place in a store: the parts from the root on. -/
abbrev Place := List String

/-- Files and directories. The working directory and all directories above it exist. -/
structure Store where
  /-- The working directory. -/
  home : Place := []
  files : List (Place × ByteArray) := []
  directories : List Place := []
  /-- Files that hold nothing and take everything. -/
  drains : List Place := []

namespace Store

/-- An empty working directory on a machine with a null device and an empty standard input. -/
def machine : Store where
  home := ["tmp", "work"]
  directories := [["dev"], ["etc"], ["home"], ["usr"], ["var"]]
  drains := [["dev", "null"], ["dev", "stdin"]]

/-- The most bytes of a name. -/
def maxNameSize : Nat := 255

/-- The most bytes of a path. -/
def maxPathSize : Nat := 4095

/-- A name that no directory can hold. -/
def isTooLong (name : String) : Bool := maxNameSize < name.utf8ByteSize

/-- The bytes at a place, if it is a file. -/
def file? (s : Store) (place : Place) : Option ByteArray :=
  if s.drains.contains place then some .empty
  else (s.files.find? (·.1 = place)).map (·.2)

/-- There is a directory at the place. -/
def isDirectory (s : Store) (place : Place) : Bool :=
  place.isPrefixOf s.home || s.directories.contains place

/-- The place reached from the directory `place` by further directories. -/
def follow (s : Store) (place : Place) : List String → Except IoFault Place
  | [] => .ok place
  | part :: parts =>
    if part = "." then s.follow place parts
    else if part = ".." then s.follow place.dropLast parts
    else if isTooLong part then .error .nameTooLong
    else
      let next := place ++ [part]
      if s.isDirectory next then s.follow next parts
      else if (s.file? next).isSome then .error .notADirectory
      else .error .notFound

/-- The place where a path starts. -/
def start (s : Store) (path : String) : Place := if Path.isAbsolute path then [] else s.home

/-- Where a path leads: a directory, or a name in one. -/
inductive Target where
  | directory (place : Place)
  | entry (place : Place) (name : String)
  deriving DecidableEq, Repr

/-- Follows a path up to its last part. -/
def locate (s : Store) (path : String) : Except IoFault Target :=
  if path.toList.contains '\x00' then .error .malformedPath
  else if maxPathSize < path.utf8ByteSize then .error .nameTooLong
  else
    match (Path.parts path).getLast? with
    | none => if Path.isAbsolute path then .ok (.directory []) else .error .notFound
    | some name =>
      if name = "." ∨ name = ".." then (s.follow (s.start path) (Path.parts path)).map .directory
      else (s.follow (s.start path) (Path.parts path).dropLast).map (.entry · name)

def read (s : Store) (path : String) : Except IoFault ByteArray := do
  match ← s.locate path with
  | .directory _ => .error .isADirectory
  | .entry place name =>
    let place := place ++ [name]
    if isTooLong name then .error .nameTooLong
    else if s.isDirectory place then .error .isADirectory
    else
      match s.file? place with
      | none => .error .notFound
      | some bytes => if Path.endsInSlash path then .error .notADirectory else .ok bytes

/-- The store with other bytes at a place. A drain stays as it is. -/
def put (s : Store) (place : Place) (bytes : ByteArray) : Store :=
  if s.drains.contains place then s
  else { s with files := (place, bytes) :: s.files.filter (·.1 ≠ place) }

/-- The place of a file that may be written. -/
def writable (s : Store) (path : String) : Except IoFault Place := do
  match ← s.locate path with
  | .directory _ => .error .isADirectory
  | .entry place name =>
    let place := place ++ [name]
    if s.isDirectory place || Path.endsInSlash path then .error .isADirectory
    else if isTooLong name then .error .nameTooLong
    else .ok place

/-- The store after a file is written whole. -/
def write (s : Store) (path : String) (bytes : ByteArray) : Except IoFault Store :=
  (s.writable path).map fun place => s.put place bytes

/-- Bytes with others laid over them from an offset on; a gap is filled with zeros. -/
def overlay (old : ByteArray) (offset : Nat) (new : ByteArray) : ByteArray :=
  let front := old.extract 0 offset
  let gap : ByteArray := ⟨Array.replicate (offset - front.size) 0⟩
  front ++ gap ++ new ++ old.extract (offset + new.size) old.size

/-- The store after bytes are written into the file at a place from an offset on. -/
def putAt (s : Store) (place : Place) (offset : Nat) (bytes : ByteArray) : Store :=
  s.put place (overlay ((s.file? place).getD .empty) offset bytes)

/-- The store after the directories of a path are made, from the directory `place` on. -/
def makeDirectories (s : Store) (place : Place) : List String → Except IoFault Store
  | [] => .ok s
  | part :: parts =>
    if part = "." then s.makeDirectories place parts
    else if part = ".." then s.makeDirectories place.dropLast parts
    else if isTooLong part then .error .nameTooLong
    else
      let next := place ++ [part]
      if s.isDirectory next then s.makeDirectories next parts
      else if (s.file? next).isSome then .error .notADirectory
      else { s with directories := next :: s.directories }.makeDirectories next parts

/-- The store after the directories above a path are made. -/
def makeParents (s : Store) (path : String) : Except IoFault Store :=
  s.makeDirectories (s.start path) (Path.components path).dropLast

theorem isDirectory_put (s : Store) (place other : Place) (bytes : ByteArray) :
    (s.put place bytes).isDirectory other = s.isDirectory other := by
  unfold put; split <;> rfl

theorem drains_put (s : Store) (place : Place) (bytes : ByteArray) :
    (s.put place bytes).drains = s.drains := by
  unfold put; split <;> rfl

theorem file?_put {s : Store} {place : Place} (bytes : ByteArray) (h : place ∉ s.drains) :
    (s.put place bytes).file? place = some bytes := by
  simp [put, file?, h]

theorem file?_put_of_ne (s : Store) {place other : Place} (bytes : ByteArray) (h : other ≠ place) :
    (s.put place bytes).file? other = s.file? other := by
  unfold put
  split
  · rfl
  · simp only [file?]
    rw [List.find?_cons_of_neg (by simpa using h.symm)]
    congr 2
    rw [List.find?_filter]
    congr 1
    funext x
    by_cases hx : x.1 = other <;> simp_all

/-- Bytes laid over the end of others are behind them. -/
theorem overlay_size (old new : ByteArray) : overlay old old.size new = old ++ new := by
  unfold overlay
  simp only [ByteArray.extract_zero_size, Nat.sub_self, Array.replicate_zero]
  rw [ByteArray.extract_eq_empty_iff.2 (by omega), ByteArray.append_empty]
  exact congrArg (· ++ new) ByteArray.append_empty

/-- A drain is there, whatever it holds. -/
theorem isSome_file? {s : Store} {place : Place} {bytes : ByteArray}
    (h : place ∉ s.drains → s.file? place = some bytes) : (s.file? place).isSome := by
  by_cases hdrain : place ∈ s.drains
  · simp [file?, hdrain]
  · rw [h hdrain]
    rfl

/-- Bytes written behind the end of a file. A drain takes them anywhere. -/
theorem putAt_size {s : Store} {place : Place} {old : ByteArray}
    (h : place ∉ s.drains → s.file? place = some old) (new : ByteArray) :
    s.putAt place old.size new = s.put place (old ++ new) := by
  by_cases hdrain : place ∈ s.drains
  · simp only [putAt, put]
    rw [if_pos (by simpa using hdrain), if_pos (by simpa using hdrain)]
  · rw [putAt, h hdrain, Option.getD_some, overlay_size]

/-- Every directory of `s` is one of `t`, seen from the same place. -/
structure Within (s t : Store) : Prop where
  home : t.home = s.home
  isDirectory : ∀ place, s.isDirectory place = true → t.isDirectory place = true

/-- Both stores have the same directories and are seen from the same place. -/
structure SameTree (s t : Store) : Prop where
  home : t.home = s.home
  isDirectory : ∀ place, t.isDirectory place = s.isDirectory place

theorem SameTree.refl (s : Store) : s.SameTree s := ⟨rfl, fun _ => rfl⟩

theorem sameTree_put (s : Store) (place : Place) (bytes : ByteArray) :
    s.SameTree (s.put place bytes) where
  home := by unfold put; split <;> rfl
  isDirectory other := isDirectory_put s place other bytes

section
variable {s t u : Store} {path : String} {place here goal : Place} {parts : List String}

theorem Within.start_eq (h : s.Within t) (path : String) : t.start path = s.start path := by
  unfold start
  rw [h.home]

/-- More directories lead to the same places. -/
theorem Within.follow (h : s.Within t) (hfollow : s.follow here parts = .ok goal) :
    t.follow here parts = .ok goal := by
  fun_induction Store.follow s here parts with
  | case1 here => exact hfollow
  | case2 here parts ih => simpa [Store.follow] using ih hfollow
  | case3 here parts _ ih => simpa [Store.follow] using ih hfollow
  | case4 => cases hfollow
  | case5 here part parts hhere hup hlong next hnext ih =>
    rw [Store.follow, if_neg hhere, if_neg hup, if_neg hlong]
    dsimp only
    rw [if_pos (h.isDirectory _ hnext)]
    exact ih hfollow
  | case6 => cases hfollow
  | case7 => cases hfollow

theorem Within.locate (h : s.Within t) {target : Target} (hlocate : s.locate path = .ok target) :
    t.locate path = .ok target := by
  unfold Store.locate at hlocate ⊢
  rw [h.start_eq]
  split at hlocate
  · cases hlocate
  · rw [if_neg ‹_›]
    split at hlocate
    · cases hlocate
    · rw [if_neg ‹_›]
      split at hlocate
      · exact hlocate
      · split at hlocate
        · rw [if_pos ‹_›]
          cases hs : s.follow (s.start path) (Path.parts path) with
          | error fault => rw [hs] at hlocate; cases hlocate
          | ok goal => rw [h.follow hs, ← hlocate, hs]
        · rw [if_neg ‹_›]
          cases hs : s.follow (s.start path) (Path.parts path).dropLast with
          | error fault => rw [hs] at hlocate; cases hlocate
          | ok goal => rw [h.follow hs, ← hlocate, hs]

/-- A file may be written under every name in a directory that is no directory itself. -/
theorem writable_eq_ok_iff : s.writable path = .ok place ↔ ∃ above name,
    s.locate path = .ok (.entry above name) ∧ above ++ [name] = place ∧
      s.isDirectory place = false ∧ Path.endsInSlash path = false ∧ isTooLong name = false := by
  unfold writable
  cases s.locate path with
  | error fault => simp [bind, Except.bind]
  | ok target =>
    cases target with
    | directory place => simp [bind, Except.bind]
    | entry above name =>
      by_cases hn : s.isDirectory (above ++ [name]) || Path.endsInSlash path
      · simp only [bind, Except.bind, hn]
        grind
      · simp only [bind, Except.bind, hn]
        grind

theorem Within.writable (h : s.Within t) (hwritable : s.writable path = .ok place)
    (hfree : t.isDirectory place = false) : t.writable path = .ok place := by
  obtain ⟨above, name, hlocate, hplace, -, hslash, hlong⟩ := writable_eq_ok_iff.1 hwritable
  exact writable_eq_ok_iff.2 ⟨above, name, h.locate hlocate, hplace, hfree, hslash, hlong⟩

theorem SameTree.symm (h : s.SameTree t) : t.SameTree s where
  home := h.home.symm
  isDirectory place := (h.isDirectory place).symm

theorem SameTree.trans (h : s.SameTree t) (h' : t.SameTree u) : s.SameTree u where
  home := h'.home.trans h.home
  isDirectory place := (h'.isDirectory place).trans (h.isDirectory place)

theorem SameTree.within (h : s.SameTree t) : s.Within t where
  home := h.home
  isDirectory place hplace := (h.isDirectory place).trans hplace

theorem SameTree.writable (h : s.SameTree t) (hwritable : s.writable path = .ok place) :
    t.writable path = .ok place := by
  obtain ⟨-, -, -, -, hfree, -⟩ := writable_eq_ok_iff.1 hwritable
  exact h.within.writable hwritable ((h.isDirectory place).trans hfree)

/-- What may be written does not depend on what the files hold. -/
theorem SameTree.writable_iff (h : s.SameTree t) :
    t.writable path = .ok place ↔ s.writable path = .ok place :=
  ⟨h.symm.writable, h.writable⟩

/-- A file that may be written is read as it is. -/
theorem read_of_writable (h : s.writable path = .ok place) :
    s.read path = match s.file? place with
      | some bytes => .ok bytes
      | none => .error .notFound := by
  obtain ⟨above, name, hlocate, rfl, hfree, hslash, hlong⟩ := writable_eq_ok_iff.1 h
  unfold read
  rw [hlocate]
  simp only [bind, Except.bind, hfree, hlong, hslash]
  cases s.file? (above ++ [name]) <;> rfl

end

/-- A file that is there is read. -/
theorem exists_read_of_writable {s : Store} {path : String} {place : Place}
    (h : s.writable path = .ok place) (hfile : (s.file? place).isSome) :
    ∃ bytes, s.read path = .ok bytes := by
  obtain ⟨bytes, hbytes⟩ := Option.isSome_iff_exists.1 hfile
  exact ⟨bytes, by rw [read_of_writable h, hbytes]⟩

theorem read_write {s t : Store} {path : String} {bytes : ByteArray}
    (h : s.write path bytes = .ok t) (hd : ∀ place, s.writable path = .ok place → place ∉ s.drains) :
    t.read path = .ok bytes := by
  cases hw : s.writable path with
  | error fault => rw [write, hw] at h; cases h
  | ok place =>
    rw [write, hw] at h
    cases h
    rw [read_of_writable ((sameTree_put ..).writable hw), file?_put bytes (hd place hw)]

end Store

end Interleave
