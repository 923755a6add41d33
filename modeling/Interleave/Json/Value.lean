/-!
# JSON values

A JSON number is kept as an integer when it was written as one that fits 64 bits, and as a binary64
number otherwise. An object keeps its members in order. `canonical` is the form of free-form values
in log lines: members sorted by key, the last one of each key.
-/
namespace Interleave

inductive Json.Number where
  | integer (value : Int)
  | real (value : Float)
  deriving DecidableEq, Repr

inductive Json where
  | null
  | bool (value : Bool)
  | number (value : Json.Number)
  | string (value : String)
  | array (items : List Json)
  | object (members : List (String × Json))
  deriving Repr, Inhabited

namespace Json

def nat (n : Nat) : Json := number (.integer n)

def int (n : Int) : Json := number (.integer n)

/-- A number, or `null` if it is not finite: JSON has no such numbers. -/
def real (x : Float) : Json := if x.isFinite then number (.real x) else null

/-- The value, or `null` if there is none. -/
def orNull (f : α → Json) (x? : Option α) : Json := (x?.map f).getD null

/-- A member that is left out if there is no value. -/
def member? (key : String) (f : α → Json) (x? : Option α) : List (String × Json) :=
  (x?.map fun x => (key, f x)).toList

/-- Puts a member in its place by key; a member of the same key is replaced. -/
def insertMember (key : String) (value : Json) : List (String × Json) → List (String × Json)
  | [] => [(key, value)]
  | (k, v) :: ms =>
    if key < k then (key, value) :: (k, v) :: ms
    else if key = k then (key, value) :: ms
    else (k, v) :: insertMember key value ms

mutual

/-- Members sorted by key, the last one of each key, throughout the value. -/
def canonical : Json → Json
  | array items => array (canonicalItems items)
  | object members => object (canonicalMembers [] members)
  | value => value

/-- The items in canonical form. -/
def canonicalItems : List Json → List Json
  | [] => []
  | x :: xs => canonical x :: canonicalItems xs

/-- The members in canonical form, added to those of `sorted`. -/
def canonicalMembers (sorted : List (String × Json)) : List (String × Json) → List (String × Json)
  | [] => sorted
  | (key, value) :: ms => canonicalMembers (insertMember key (canonical value) sorted) ms

end

/-! ## Views -/

def string? : Json → Option String
  | string s => some s
  | _ => none

/-- An integer between `min` and `max`. -/
def intWithin? (min max : Int) : Json → Option Int
  | number (.integer n) => if min ≤ n ∧ n ≤ max then some n else none
  | _ => none

/-- A natural number of at most `max`. -/
def natUpTo? (max : Nat) (value : Json) : Option Nat := (intWithin? 0 max value).map Int.toNat

def float? : Json → Option Float
  | number (.integer n) => some (Float.ofInt n)
  | number (.real x) => some x
  | _ => none

/-- A choice out of named values: its name, or an object with the name as the only key and `null`
as its value. -/
def choice? (named : String → Option α) : Json → Option α
  | string s => named s
  | object [(s, null)] => named s
  | _ => none

def list? (f : Json → Option α) : Json → Option (List α)
  | array items => items.mapM f
  | _ => none

end Json

end Interleave
