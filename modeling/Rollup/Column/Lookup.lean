import Rollup.Column.Spec
import Rollup.Filter.RowFilter
import Rollup.Formula.Parser

/-! # Finding columns

The columns of a table are named by its header, by `$` and a position, or by the name of the block
number.
-/

namespace Rollup

/-- What names the columns of a table. -/
structure Columns where
  header : Option (List Text)
  width : Nat
deriving DecidableEq, Repr

def Table.columns (t : Table) : Columns := ⟨t.header, t.width⟩

namespace Columns

/-- The position that decimal digits name. -/
def numbered (c : Columns) (digits : Text) : Except ColumnProblem Nat :=
  match Text.signedToNatBelow? Text.countBound digits with
  | none => .error .invalidPosition
  | some n => if n = 0 ∨ c.width < n then .error (.outOfRange c.width) else .ok n

/-- The first position with this name in the header. -/
def named (c : Columns) (name : Text) : Except ColumnProblem Nat :=
  match c.header with
  | none => .error .noHeader
  | some header =>
    match header.findIdx? (· = name) with
    | some i => .ok (i + 1)
    | none => .error .notInHeader

/-- The position of a column. A quoted name is always looked up in the header. -/
def position (c : Columns) (name : Text) (quoted : Bool) : Except ColumnProblem Nat :=
  if quoted then c.named name
  else if name = blockName then .ok blockPosition
  else
    match name with
    | '$' :: digits => c.numbered digits
    | name => c.named name

/-- The position of a column, or the fault that names it. -/
def find (c : Columns) (name : Text) (quoted : Bool) : Except ColumnFault Nat :=
  (c.position name quoted).mapError (⟨name, ·⟩)

/-- What an unknown column in a formula means: a formula that is nothing but a reference is an
unknown column itself. -/
def unknown (formula : Text) (parsed : Expr) (fault : ColumnFault) : Failure :=
  match parsed with
  | .name _ _ => .column fault
  | _ => .compile formula (.column fault)

/-- Reads a formula and finds its columns. -/
def formula (c : Columns) (t : Text) : Except Failure Expr :=
  match Expr.read t with
  | .error fault => .error (.compile t (.formula fault))
  | .ok parsed => (parsed.resolve c.find).mapError (unknown t parsed)

/-- Reads a row filter in the language of an engine. -/
def rowFilter (c : Columns) (E : Filter.Engine) (expression : Text) : Except Failure RowFilter :=
  (RowFilter.compile E (fun name quoted => (c.position name quoted).toOption) expression).mapError
    fun fault => .compile expression (.filter fault)

/-- Finds the column that an item of a list names, in quotes or not. -/
def item (c : Columns) (t : Text) : Except Failure Nat :=
  let found :=
    match Text.unquote? t with
    | some name => c.find name true
    | none => c.find t false
  found.mapError .column

/-- Finds the columns of a list that is split as specs are. -/
def list (c : Columns) (t : Text) : Except Failure (List Nat) := do
  (← ColumnSpec.splitList t).mapM c.item

end Columns

end Rollup
