import Rollup.Filter.RowFilter
import Rollup.Group

/-! # Transposing tables

Every chosen column becomes a row, in which every accepted row is a cell and every separator an
empty one. The header comes first. A column that is blank in all rows becomes a separator.
-/

namespace Rollup

/-- The name of a column in a header. -/
def headerCell (header : List Text) : Nat → Text
  | 0 => blockName
  | i + 1 => header.getD i []

namespace Table

/-- The rows that stay, with nothing for separators. -/
def keptRows (t : Table) (filter : Option RowFilter) : List (Option BodyRow) :=
  t.placedRows.filter fun r => r.all (BodyRow.passes filter)

/-- The column at a position, written as a row. -/
def columnAsRow (header : Option (List Text)) (rows : List (Option BodyRow)) (position : Nat) :
    Row :=
  let shown := rows.map fun r => (r.map (·.cell position)).getD []
  if (rows.filterMap id).all fun r => Text.isBlank (r.cell position) then .separator
  else .cells ((header.map (headerCell · position)).toList ++ shown)

/-- The columns at these positions as the rows of a table without a header. -/
def transpose (t : Table) (positions : List Nat) (filter : Option RowFilter) : Table where
  header := none
  rows := positions.map (columnAsRow t.header (t.keptRows filter))

end Table

end Rollup
