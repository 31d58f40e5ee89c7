import Rollup.Calendar.Moment
import Rollup.Text.Class

/-! # Dates as text

A date is `year-month-day`, with a four-digit year. A time of day may follow after blanks or the
letter `T`. Inside `<...>` or `[...]` the name of the day may stand before the time.
-/

namespace Rollup

/-- A moment read from text, and whether the text gave a time of day. -/
structure Timestamp where
  moment : Moment
  withTime : Bool
deriving DecidableEq

namespace Timestamp

/-- Between `least` and `most` decimal digits at the start, as many as there are. -/
def digits? (least most : Nat) (t : Text) : Option (Nat × Text) :=
  let ds := (t.take most).takeWhile Char.isDigit
  if least ≤ ds.length then some (Text.digitsToNat ds, t.drop ds.length) else none

/-- A date at the start, not checked against the calendar. -/
def date? (t : Text) : Option (Date × Text) := do
  let (year, t) ← digits? 4 4 t
  let (month, t) ← (Text.after? ['-'] t).bind (digits? 1 2)
  let (day, t) ← (Text.after? ['-'] t).bind (digits? 1 2)
  some (⟨year, month, day⟩, t)

/-- A time of day, hours to seconds, not checked against the clock. -/
def clock? (t : Text) : Option (Nat × Nat × Nat) := do
  let (hours, t) ← digits? 1 2 t
  let (minutes, t) ← (Text.after? [':'] t).bind (digits? 2 2)
  match t with
  | [] => some (hours, minutes, 0)
  | t =>
    let (seconds, t) ← (Text.after? [':'] t).bind (digits? 2 2)
    if t = [] then some (hours, minutes, seconds) else none

/-- What follows the date and the separators. -/
structure Tail where
  dayName : Bool
  clock : Option (Nat × Nat × Nat)
deriving DecidableEq

/-- An optional time up to the end of the text. -/
def tailClock? (dayName : Bool) (t : Text) : Option Tail :=
  if t = [] then some ⟨dayName, none⟩ else (clock? t).map fun c => ⟨dayName, some c⟩

/-- An optional day name, which may end in a dot, and an optional time up to the end. -/
def tail? (t : Text) : Option Tail :=
  let name := t.takeWhile Text.isLetter
  if name = [] then tailClock? false t
  else
    let t := t.drop name.length
    tailClock? true (Text.trimStart ((Text.after? ['.'] t).getD t))

def isSeparator (c : Char) : Bool := c = ' ' || c = 'T'

/-- The tail after a date. The separators take as many characters as they can while the rest still
reads, since the letter `T` may also start a day name. -/
def separatedTail? (t : Text) : Option Tail :=
  if t = [] then some ⟨false, none⟩
  else
    let most := (t.takeWhile isSeparator).length
    (List.range most).findSome? fun n => tail? (t.drop (most - n))

def isClock (hours minutes seconds : Nat) : Bool := hours < 24 && minutes < 60 && seconds < 60

/-- Reads a date without brackets around it. -/
def readPlain? (bracketed : Bool) (t : Text) : Option Timestamp := do
  let (date, rest) ← date? t
  let tail ← separatedTail? rest
  if tail.dayName && !bracketed || !date.isValid then none
  else
    let start := date.toDays * Moment.millisPerDay
    match tail.clock with
    | none => (Moment.ofMillis? start).map (⟨·, false⟩)
    | some (h, m, s) =>
      if isClock h m s then
        (Moment.ofMillis? (start + ((h * 60 + m) * 60 + s) * 1000)).map (⟨·, true⟩)
      else none

/-- The text inside a pair of brackets, `<...>` or `[...]`. -/
def unbracket? : Text → Option Text
  | '<' :: t => Text.before? '>' t
  | '[' :: t => Text.before? ']' t
  | _ => none

def read? (t : Text) : Option Timestamp :=
  match unbracket? t with
  | some inner => readPlain? true (Text.trim inner)
  | none => readPlain? false (Text.trim t)

/-! ## Printing -/

/-- At least four digits; beyond 9999 with a plus sign, before year 0 with a minus sign. -/
def yearText (year : Int) : Text :=
  if year < 0 then '-' :: Text.ofNatPadded 4 year.natAbs
  else if 9999 < year then '+' :: Text.ofNat year.toNat
  else Text.ofNatPadded 4 year.toNat

def dateText (m : Moment) : Text :=
  let d := m.date
  yearText d.year ++ '-' :: Text.ofNatPadded 2 d.month ++ '-' :: Text.ofNatPadded 2 d.day

/-- Hours and minutes. -/
def timeText (m : Moment) : Text :=
  let minutes := m.timeOfDay / 60000
  Text.ofNatPadded 2 (minutes / 60) ++ ':' :: Text.ofNatPadded 2 (minutes % 60)

def print (s : Timestamp) : Text :=
  if s.withTime then dateText s.moment ++ ' ' :: timeText s.moment else dateText s.moment

end Timestamp

end Rollup
