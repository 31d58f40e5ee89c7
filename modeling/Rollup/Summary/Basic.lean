import Rollup.Sort.Directive
import Rollup.Summary.Cells
import Rollup.Table.Transpose

/-! # Summaries of tables

A summary has one row for every group of rows. Groups are formed by the columns that are bare
references. Everything that can fail does so before the first group is formed.
-/

namespace Rollup

structure SummaryRequest where
  /-- The column specs, separated by white space. -/
  columns : Text := []
  rowFilter : Option Text := none
  /-- How many of the leading sort directives start a new block when their keys change. -/
  separatorDepth : Option Nat := none
  format : FormatDefaults := {}
deriving DecidableEq, Repr

structure TransposeRequest where
  /-- The columns that become rows, all of them when there is no list. -/
  columns : Option Text := none
  rowFilter : Option Text := none
deriving DecidableEq, Repr

/-- Reads a row filter. A blank one is none. -/
def Columns.optionalFilter (c : Columns) (E : Filter.Engine) (expression : Option Text) :
    Except Failure (Option RowFilter) :=
  match expression.map Text.trim with
  | none | some [] => .ok none
  | some e => (c.rowFilter E e).map some

namespace Summary

/-- The positions of the key columns, each once. -/
def keyPositions (cs : List OutputColumn) : List Nat :=
  (cs.filterMap OutputColumn.keyPosition?).foldl
    (fun seen p => if p ∈ seen then seen else seen ++ [p]) []

/-- The sort directives of the columns, in the order in which they are applied. -/
def directives (cs : List OutputColumn) : List Directive :=
  Directive.inOrder <| cs.zipIdx.filterMap fun (c, i) =>
    c.spec.sort.map fun s => ⟨i, s.key, s.descending, s.strength⟩

/-- The items of a list that stand at the places of visible columns. -/
def visible {α : Type} (cs : List OutputColumn) (items : List α) : List α :=
  (List.zip cs items).filterMap fun (c, x) => if c.spec.invisible then none else some x

/-- Rows with separators before those at the given indices, which are ascending. The first row has
the index `next`. -/
def separate (next : Nat) : (starts : List Nat) → List (List Text) → List Row
  | _, [] => []
  | [], r :: rows => .cells r :: separate (next + 1) [] rows
  | start :: starts, r :: rows =>
    if start = next then .separator :: .cells r :: separate (next + 1) starts rows
    else .cells r :: separate (next + 1) (start :: starts) rows

/-- The rows of a summary, sorted, with all columns. -/
def sortedRows (t : Table) (cs : List OutputColumn) (filter : Option RowFilter)
    (defaults : FormatDefaults) : List (List Text) :=
  Directive.sortRows (directives cs) ((t.groups (keyPositions cs) filter).map (·.cells defaults cs))

/-- The summary with these columns. -/
def table (t : Table) (cs : List OutputColumn) (filter : Option RowFilter) (depth : Nat)
    (defaults : FormatDefaults) : Table :=
  let rows := sortedRows t cs filter defaults
  { header := some (visible cs (cs.map OutputColumn.header))
    rows := separate 0 (Directive.blockStarts (directives cs) depth rows) (rows.map (visible cs)) }

end Summary

namespace Table

/-- The output columns of a request. -/
def outputColumns (t : Table) (columns : Text) : Except Failure (List OutputColumn) :=
  match ColumnSpec.readList columns with
  | .error failure => .error failure
  | .ok [] => .error (.spec columns .noSpecs)
  | .ok specs => specs.mapM t.columns.output

/-- Groups the rows of a table and computes one row for every group. -/
def summarize (t : Table) (E : Filter.Engine) (r : SummaryRequest) : Except Failure Table := do
  let cs ← t.outputColumns r.columns
  let filter ← t.columns.optionalFilter E r.rowFilter
  return Summary.table t cs filter (r.separatorDepth.getD 0) r.format

/-- The positions that a request names, or all of them. -/
def chosenColumns (t : Table) (columns : Option Text) : Except Failure (List Nat) :=
  match columns with
  | none => .ok (List.range' 1 t.width)
  | some list => if Text.isBlank list then .ok (List.range' 1 t.width) else t.columns.list list

/-- Turns the columns of a table into rows. -/
def transposed (t : Table) (E : Filter.Engine) (r : TransposeRequest) : Except Failure Table := do
  let positions ← t.chosenColumns r.columns
  let filter ← t.columns.optionalFilter E r.rowFilter
  return t.transpose positions filter

end Table

end Rollup
