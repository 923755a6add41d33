/-!
# Paths

A path is a text of parts between slashes. Empty parts do not count, and neither do parts `.` except at
the front. The name of a file is the last part, and its extension what follows the last dot of the name,
unless that dot is its first character.
-/
namespace Interleave.Path

/-- The parts of a text between slashes, where `current` holds the open part in reverse. -/
def splitFrom (current : List Char) : List Char → List String
  | [] => [String.ofList current.reverse]
  | c :: cs =>
    if c = '/' then String.ofList current.reverse :: splitFrom [] cs
    else splitFrom (c :: current) cs

def split (path : String) : List String := splitFrom [] path.toList

def isAbsolute (path : String) : Bool := path.toList.head? = some '/'

/-- The parts that name something, in their order. -/
def parts (path : String) : List String := (split path).filter (· ≠ "")

/-- The path ends in a slash and can only name a directory. -/
def endsInSlash (path : String) : Bool := path.toList.getLast? = some '/'

/-- The parts without those that stay where they are. -/
def components (path : String) : List String :=
  match parts path with
  | [] => []
  | p :: ps => p :: ps.filter (· ≠ ".")

/-- The directory above; an empty text is the working directory. -/
def parent (path : String) : String :=
  (if isAbsolute path then "/" else "") ++ "/".intercalate (components path).dropLast

def fileName? (path : String) : Option String :=
  ((components path).getLast?).filter fun name => name ≠ "." ∧ name ≠ ".."

def nameExtension? (name : String) : Option String :=
  let back := name.toList.reverse
  match back.dropWhile (· ≠ '.') with
  | '.' :: _ :: _ => some (String.ofList (back.takeWhile (· ≠ '.')).reverse)
  | _ => none

def extension? (path : String) : Option String := (fileName? path).bind nameExtension?

end Interleave.Path
