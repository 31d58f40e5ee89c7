import Rollup.Filter.Engine
import Rollup.Filter.Reference

/-! # Row filters

A row filter is written with the columns of a table and compiled once. It accepts the rows for which
it is true; a row on which it fails is not accepted.
-/

namespace Rollup

structure RowFilter where
  /-- The truth value for the items of a row, if there is one. -/
  truth? : List Filter.Item → Option Bool

namespace Filter

/-- Looks a reference up and notes the first one that has to be a column and is none. A bare name
may be something else, a quoted name or a position may not. -/
def notingLookup (position : Text → Bool → Option Nat) (r : Reference) :
    StateM (Option FilterFault) (Option Nat) :=
  let found :=
    if !r.quoted && r.name = blockName then some blockPosition else position r.name r.quoted
  if found.isNone && (r.quoted || r.name.head? = some '$') then do
    modify fun noted => noted.or (some ⟨.unknownColumn r.name, r.offset⟩)
    return none
  else return found

end Filter

namespace RowFilter

/-- A compiled program as a filter. -/
def ofProgram {E : Filter.Engine} (p : E.Program) : RowFilter := ⟨E.truth? p⟩

/-- Compiles a filter whose columns are at the positions that `position` gives, for a name and
whether it is quoted. -/
def compile (E : Filter.Engine) (position : Text → Bool → Option Nat) (expression : Text) :
    Except FilterFault RowFilter :=
  match (Filter.substitute (Filter.notingLookup position) expression).run none with
  | (_, some fault) => .error fault
  | (script, none) =>
    match E.compile script with
    | .error fault => .error ⟨.script fault.problem, fault.offset⟩
    | .ok p => .ok (ofProgram p)

/-- The truth value for a row, if there is one. -/
def evaluate? (f : RowFilter) (r : BodyRow) : Option Bool := f.truth? (Filter.rowItems r)

def accepts (f : RowFilter) (r : BodyRow) : Bool := f.evaluate? r = some true

end RowFilter

end Rollup
