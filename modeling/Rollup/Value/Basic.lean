import Rollup.Calendar.Timestamp
import Rollup.Number.Numeral

/-! # Values

What a cell holds and what formulas compute with.
-/

namespace Rollup

inductive Value where
  | empty
  | number (n : Float)
  | date (stamp : Timestamp)
  /-- Elapsed time in seconds. -/
  | duration (seconds : Float)
  /-- A mean and its standard error. -/
  | uncertain (mean err : Float)
  | text (t : Text)

namespace Value

def isEmpty : Value → Bool
  | empty => true
  | _ => false

def isText : Value → Bool
  | text _ => true
  | _ => false

/-- The number that statistics use: dates in days since 1970, durations in seconds. -/
def toFloat? : Value → Option Float
  | number n => some n
  | duration s => some s
  | date stamp => some stamp.moment.toDays
  | uncertain mean _ => some mean
  | empty | text _ => none

/-- The date that is a number of days after 1970-01-01. It has a time unless it is at midnight. Days
outside the calendar stay a number. -/
def ofDays (days : Float) : Value :=
  match Moment.epoch.shiftSeconds? (days * Moment.secondsPerDay) with
  | some m => date ⟨m, !m.isMidnight⟩
  | none => number days

/-- Numbers and nothing stay, all else counts as zero. -/
def toNumeric : Value → Value
  | number n => number n
  | empty => empty
  | _ => number 0

end Value

end Rollup
