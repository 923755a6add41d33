import Interleave.Json.Syntax
/-!
# Records in JSON

A record is written as an object that names its fields, in any order and with any further members
between them, or as an array of its fields in the order of their declaration. A field named twice is
refused, and so is an array with more items than fields. Members that the record does not name are
not read at all, so nothing about them can be wrong.
-/
namespace Interleave.Json

/-- What a text gives for one field of a record. -/
inductive Slot where
  | given (value : Syntax)
  /-- The object does not name the field. -/
  | absent
  /-- The array ends before the field. -/
  | beyond
  deriving Repr, Inhabited

namespace Slot

/-- A field that has to be given. -/
def required (read : Syntax → Option α) : Slot → Option α
  | given s => read s
  | _ => none

/-- A field with a value for when it is not given. -/
def withDefault (read : Syntax → Option α) (default : α) : Slot → Option α
  | given s => read s
  | _ => some default

/-- A field that an object may leave out, and that `null` leaves empty. -/
def optional (read : Syntax → Option α) : Slot → Option (Option α)
  | given .null => some none
  | given s => (read s).map some
  | absent => some none
  | beyond => none

/-- A field that an object and an array may leave out, and that `null` leaves empty. -/
def omittable (read : Syntax → Option α) : Slot → Option (Option α)
  | beyond => some none
  | slot => slot.optional read

end Slot

namespace Syntax

/-- The slot of the field `name` in an object. -/
def slot? (members : List (String × Syntax)) (name : String) : Option Slot :=
  match members.filter (·.1 = name) with
  | [] => some .absent
  | [m] => some (.given m.2)
  | _ => none

/-- The slots of the fields `names`, in their order. -/
def slots? (names : List String) : Syntax → Option (List Slot)
  | object members => do
    let members ← members.mapM fun (key, item) => (text? key).map (·, item)
    names.mapM (slot? members)
  | array items =>
    if items.length ≤ names.length then
      some (items.map .given ++ List.replicate (names.length - items.length) .beyond)
    else none
  | _ => none

/-- The value of a part of a text, read by `view`. -/
def fit? (view : Json → Option α) (s : Syntax) : Option α := (s.value? maxDepth).bind view

def list? (read : Syntax → Option α) : Syntax → Option (List α)
  | array items => items.mapM read
  | _ => none

end Syntax

end Interleave.Json
