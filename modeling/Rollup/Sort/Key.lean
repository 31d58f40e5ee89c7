import Rollup.Calendar.Timestamp
import Rollup.Number.Numeral
import Rollup.Number.Order
import Rollup.Text.Class
import Rollup.Value.Duration

/-! # Sort keys

Rows are sorted by what their cells show: as text, as numbers, or as times. A cell that does not
read as the key asks counts as zero.
-/

namespace Rollup

inductive SortKey where
  | alphabetic
  | numeric
  /-- Dates and elapsed times, compared in seconds. -/
  | time
deriving DecidableEq, Repr

inductive SortValue where
  | text (t : Text)
  | number (n : Float)

/-- What a cell is compared by. -/
def SortKey.extract (k : SortKey) (cell : Text) : SortValue :=
  let t := Text.trim cell
  match k with
  | alphabetic => .text t
  | numeric => .number ((Number.read? t).getD 0)
  | time =>
    match Timestamp.read? t with
    | some stamp => .number (stamp.moment.toDays * Moment.secondsPerDay)
    | none => .number ((Duration.read? t).getD 0)

namespace SortValue

def compare : SortValue → SortValue → Ordering
  | text s, text t => Text.compare s t
  | number x, number y => (Number.order? x y).getD .eq
  | number _, text _ => .lt
  | text _, number _ => .gt

/-- Whether two values are equal, so that rows with them belong together. -/
def same : SortValue → SortValue → Bool
  | text s, text t => s = t
  | number x, number y => x == y
  | _, _ => false

end SortValue

end Rollup
