import Rollup.Text.Basic

/-! # Tables

A table has rows of cells, cut into blocks by separators, and perhaps a header. The separator that
is written under a header is not part of the rows. Rows may be shorter than the table is wide.
-/

namespace Rollup

inductive Row where
  | separator
  | cells (cs : List Text)
deriving DecidableEq, Repr

structure Table where
  header : Option (List Text)
  rows : List Row
deriving DecidableEq, Repr

def Row.cells? : Row → Option (List Text)
  | separator => none
  | cells cs => some cs

namespace Table

def dataRows (t : Table) : List (List Text) := t.rows.filterMap Row.cells?

/-- The header, if there is one, and the data rows. -/
def lines (t : Table) : List (List Text) := t.header.toList ++ t.dataRows

/-- The number of columns, which is the length of the longest row or of the header. -/
def width (t : Table) : Nat := (t.lines.map List.length).foldl max 0

end Table

/-- The position that stands for the block of a row; columns count from 1. -/
def blockPosition : Nat := 0

/-- The name of the block number. -/
def blockName : Text := "hline".toList

/-- A data row together with the number of its block, the number of separators before it. -/
structure BodyRow where
  cells : List Text
  block : Nat
deriving DecidableEq, Repr

namespace BodyRow

/-- The cell at a position. Position 0 shows the block, and cells that are missing are empty. -/
def cell (r : BodyRow) : Nat → Text
  | 0 => Text.ofNat r.block
  | i + 1 => r.cells.getD i []

end BodyRow

namespace Table

/-- The rows with their blocks, counted from `block` on; separators give nothing. -/
def placeRows (block : Nat) : List Row → List (Option BodyRow)
  | [] => []
  | .separator :: rows => none :: placeRows (block + 1) rows
  | .cells cs :: rows => some ⟨cs, block⟩ :: placeRows block rows

/-- The data rows with their blocks, and nothing for every separator. -/
def placedRows (t : Table) : List (Option BodyRow) := placeRows 0 t.rows

def bodyRows (t : Table) : List BodyRow := t.placedRows.filterMap id

end Table

end Rollup
