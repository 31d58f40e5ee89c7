import Rollup.Column.Output
import Rollup.Formula.Evaluate
import Rollup.Group

/-! # The cells of a result row

Every group gives one row. A column that several formulas mention is read once for every mode in
which they read it.
-/

namespace Rollup

/-- The values of a column in a group of rows, without the empty ones. -/
def Group.values (g : Group) (mode : CellMode) (position : Nat) : List Value :=
  (g.rows.map fun r => Value.ofCell mode (r.cell position)).filter (!·.isEmpty)

/-- The columns of a group that were read so far, each with its position and mode. -/
abbrev ReadColumns := List ((Nat × CellMode) × List Value)

namespace ReadColumns

/-- Reads a column unless that was done before. -/
def addColumn (g : Group) (mode : CellMode) (seen : ReadColumns) (position : Nat) : ReadColumns :=
  if (seen.lookup (position, mode)).isSome then seen
  else ((position, mode), g.values mode position) :: seen

/-- Reads several columns. -/
def add (g : Group) (mode : CellMode) (positions : List Nat) (seen : ReadColumns) : ReadColumns :=
  positions.foldl (addColumn g mode) seen

/-- The columns that were read in one mode. Others have no values. -/
def sequences (seen : ReadColumns) (rowCount : Nat) (mode : CellMode) : Sequences where
  rowCount := rowCount
  column position := (seen.lookup (position, mode)).getD []

end ReadColumns

namespace Group

/-- The text of a formula, from the columns that were read. -/
def formulaText (g : Group) (defaults : FormatDefaults) (seen : ReadColumns) (format : CellFormat)
    (e : Expr) : Text :=
  (e.evaluate (seen.sequences g.rows.length format.cellMode) (format.angles defaults)).print
    format defaults

/-- The cell of a column, and the columns that were read after it. -/
def cell (g : Group) (defaults : FormatDefaults) (seen : ReadColumns) (c : OutputColumn) :
    Text × ReadColumns :=
  match c.kind with
  | .key position => ((g.rows.head?.map (·.cell position)).getD [], seen)
  | .list position => (Text.joinWith ", ".toList (g.rows.map (·.cell position)), seen)
  | .literal => (c.spec.formula, seen)
  | .formula e =>
    let seen := seen.add g c.spec.format.cellMode c.positions
    (g.formulaText defaults seen c.spec.format e, seen)

def cellsFrom (g : Group) (defaults : FormatDefaults) (seen : ReadColumns) :
    List OutputColumn → List Text
  | [] => []
  | c :: cs =>
    let (text, seen) := g.cell defaults seen c
    text :: g.cellsFrom defaults seen cs

/-- The cells of a group, one for every column. -/
def cells (g : Group) (defaults : FormatDefaults) (cs : List OutputColumn) : List Text :=
  g.cellsFrom defaults [] cs

end Group

end Rollup
