/-!
# Timestamps

The date of a day is found by taking whole cycles out of the count of days: 400 years, a hundred, four,
one. Years are counted from March here, so that a leap day is the last day of its year and the months
before it have fixed lengths. A clock is no more than the texts that are read off it (`Clock`).
-/
namespace Interleave.Utc

/-- A day of the Gregorian calendar. -/
structure Date where
  year : Nat
  month : Nat
  day : Nat
  deriving DecidableEq, Repr

/-- Days from 1 March of year 0 to 1 January 1970. -/
def epoch : Nat := 719468

/-- Days before a month, counted from March. -/
def daysBefore (month : Nat) : Nat := (153 * month + 2) / 5

/-- The month, counted from March, of a day of a year that begins in March. -/
def monthOf (dayOfYear : Nat) : Nat := (5 * dayOfYear + 2) / 153

/-- The date of a day counted from 1 January 1970. -/
def date (days : Nat) : Date :=
  let cycle := (days + epoch) / 146097
  let day := (days + epoch) % 146097
  let century := min (day / 36524) 3
  let day := day - century * 36524
  let group := day / 1461
  let day := day % 1461
  let single := min (day / 365) 3
  let day := day - single * 365
  let year := 400 * cycle + 100 * century + 4 * group + single
  let month := monthOf day
  if month < 10 then ⟨year, month + 3, day - daysBefore month + 1⟩
  else ⟨year + 1, month - 9, day - daysBefore month + 1⟩

/-- A number with zeros before it up to a width. -/
def padded (width n : Nat) : String :=
  let digits := Nat.toDigits 10 n
  String.ofList (List.replicate (width - digits.length) '0' ++ digits)

/-- The time of day and date of a moment, in seconds and milliseconds from 1 January 1970. -/
def format (seconds millis : Nat) : String :=
  let d := date (seconds / 86400)
  let rest := seconds % 86400
  padded 4 d.year ++ "-" ++ padded 2 d.month ++ "-" ++ padded 2 d.day ++ "T" ++
    padded 2 (rest / 3600) ++ ":" ++ padded 2 (rest % 3600 / 60) ++ ":" ++ padded 2 (rest % 60) ++
    "." ++ padded 3 millis ++ "Z"

end Interleave.Utc

namespace Interleave

/-- The times that are read off a clock one after the other, as logs write them. Nothing is known of how far
a clock moves on between two readings. -/
structure Clock where
  reading : Nat → String

/-- A time is a clock that stands still. -/
instance : Coe String Clock := ⟨fun time => { reading := fun _ => time }⟩

end Interleave
