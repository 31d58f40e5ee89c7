import Rollup.Column.Lookup

/-! # Output columns

What a column of the result shows, once its formula is read and its columns are found.
-/

namespace Rollup

inductive ColumnKind where
  /-- A bare column. Rows are grouped by it. -/
  | key (position : Nat)
  /-- The cells of a column, one after the other. -/
  | list (position : Nat)
  /-- The formula as it is written. -/
  | literal
  | formula (e : Expr)

namespace ColumnKind

/-- The kind of a formula. -/
def ofExpr : Expr → ColumnKind
  | .column position => key position
  | .call (.aggregate .list) [.column position] => list position
  | e => formula e

/-- The formula of a kind that has one. -/
def expr? : ColumnKind → Option Expr
  | key position => some (.column position)
  | list position => some (.call (.aggregate .list) [.column position])
  | literal => none
  | formula e => some e

theorem expr?_ofExpr (e : Expr) : (ofExpr e).expr? = some e := by
  unfold ofExpr
  split <;> rfl

end ColumnKind

structure OutputColumn where
  spec : ColumnSpec
  kind : ColumnKind

namespace OutputColumn

/-- The name of the column, or else its formula as it is written. -/
def header (c : OutputColumn) : Text := c.spec.name.getD c.spec.formula

/-- The formula with positions in place of names. -/
def positional (c : OutputColumn) : Text :=
  match c.kind.expr? with
  | some e => e.print
  | none => c.spec.formula

/-- The positions that the formula mentions, ascending. -/
def positions (c : OutputColumn) : List Nat :=
  match c.kind.expr? with
  | some e => e.positions
  | none => []

def keyPosition? (c : OutputColumn) : Option Nat :=
  match c.kind with
  | .key position => some position
  | _ => none

end OutputColumn

/-- Reads the formula of a spec, unless its format shows it as it is written. -/
def Columns.output (c : Columns) (spec : ColumnSpec) : Except Failure OutputColumn :=
  if spec.format.literal then .ok ⟨spec, .literal⟩
  else (c.formula spec.formula).map fun e => ⟨spec, .ofExpr e⟩

end Rollup
