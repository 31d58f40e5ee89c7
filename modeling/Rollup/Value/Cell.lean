import Rollup.Value.Basic
import Rollup.Value.Duration
import Rollup.Text.Class

/-! # Reading cells

A cell is nothing, a number, a date, a duration, or else text.
-/

namespace Rollup

/-- How the cells of a column are read. -/
structure CellMode where
  /-- All that is no number counts as zero. -/
  numbersOnly : Bool
  /-- Blank cells are kept, as values that are not a number. -/
  keepEmpty : Bool
deriving DecidableEq

namespace CellMode

def plain : CellMode := ⟨false, false⟩

end CellMode

namespace Value

def notANumber : Float := 0.0 / 0.0

/-- The kind of a trimmed text that is not blank. -/
def recognize (t : Text) : Value :=
  match Number.read? t with
  | some n => number n
  | none =>
    match Timestamp.read? t with
    | some stamp => date stamp
    | none =>
      match Duration.read? t with
      | some seconds => duration seconds
      | none => text t

def ofCell (mode : CellMode) (cell : Text) : Value :=
  let t := Text.trim cell
  let value := if t = [] then (if mode.keepEmpty then number notANumber else empty) else recognize t
  if mode.numbersOnly then value.toNumeric else value

end Value

end Rollup
