import Rollup.Calendar.Date
import Rollup.Number.Rounding

/-! # Points in time

A moment counts milliseconds from the start of 1970-01-01. The calendar spans the years -262143 to
262142, and a shift that leaves it gives nothing.
-/

namespace Rollup

namespace Moment

def millisPerDay : Nat := 86400000

def earliest : Int := (⟨-262143, 1, 1⟩ : Date).toDays * millisPerDay

def latest : Int := ((⟨262142, 12, 31⟩ : Date).toDays + 1) * millisPerDay - 1

end Moment

/-- A point in time within the calendar. -/
structure Moment where
  millis : Int
  inCalendar : Moment.earliest ≤ millis ∧ millis ≤ Moment.latest
deriving DecidableEq

namespace Moment

def ofMillis? (millis : Int) : Option Moment :=
  if h : earliest ≤ millis ∧ millis ≤ latest then some ⟨millis, h⟩ else none

/-- The start of 1970-01-01. -/
def epoch : Moment := ⟨0, by decide⟩

/-- Later by a number of milliseconds. -/
def shift? (m : Moment) (millis : Int) : Option Moment := ofMillis? (m.millis + millis)

/-- The millisecond of the day. -/
def timeOfDay (m : Moment) : Nat := (m.millis.fmod millisPerDay).toNat

def isMidnight (m : Moment) : Bool := m.timeOfDay = 0

def date (m : Moment) : Date := Date.ofDays (m.millis.fdiv millisPerDay)

/-! ## Days and seconds as doubles -/

def secondsPerDay : Float := 86400

/-- Days since the epoch. -/
def toDays (m : Moment) : Float := Float.ofInt m.millis / 1000 / secondsPerDay

/-- Later by a number of seconds, rounded to milliseconds. -/
def shiftSeconds? (m : Moment) (seconds : Float) : Option Moment :=
  let millis := Number.round (seconds * 1000)
  if millis.isFinite then m.shift? (Number.toInt millis) else none

end Moment

end Rollup
