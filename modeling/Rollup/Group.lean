import Rollup.Filter.RowFilter

/-! # Grouping rows

Rows that a filter accepts are grouped by the texts of their key columns. Groups stand in the order
of their first rows.
-/

namespace Rollup

/-- Rows with the same key. -/
structure Group where
  key : List Text
  rows : List BodyRow
deriving DecidableEq, Repr

/-- Groups as they are built up row by row. -/
structure Grouping where
  /-- The positions of the key columns. -/
  keys : List Nat
  filter : Option RowFilter
  groups : List Group

/-- The key of a row, given the positions of the key columns. -/
def BodyRow.key (keys : List Nat) (r : BodyRow) : List Text := keys.map r.cell

/-- Whether a row passes a filter, if there is one. -/
def BodyRow.passes (filter : Option RowFilter) (r : BodyRow) : Bool :=
  filter.all fun f => f.accepts r

namespace Group

/-- Puts a row into the group with its key, or into a new one at the end. -/
def insert (key : List Text) (r : BodyRow) : List Group → List Group
  | [] => [⟨key, [r]⟩]
  | g :: gs => if g.key = key then ⟨g.key, g.rows ++ [r]⟩ :: gs else g :: insert key r gs

end Group

namespace Grouping

def start (keys : List Nat) (filter : Option RowFilter) : Grouping := ⟨keys, filter, []⟩

/-- Adds a row that the filter accepts, and tells whether it does. -/
def add (g : Grouping) (r : BodyRow) : Grouping × Bool :=
  if r.passes g.filter then ({ g with groups := Group.insert (r.key g.keys) r g.groups }, true)
  else (g, false)

end Grouping

/-- The groups of a table. Without key columns there is one group, even without rows. -/
def Table.groups (t : Table) (keys : List Nat) (filter : Option RowFilter) : List Group :=
  let gs := (t.bodyRows.foldl (fun g r => (g.add r).1) (Grouping.start keys filter)).groups
  if keys = [] ∧ gs = [] then [⟨[], []⟩] else gs

end Rollup
