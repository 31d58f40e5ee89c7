import Rollup.Sort.Key

/-! # Sorting rows

A directive sorts by one column. Directives are applied by their strength, those without one last,
and of equal ones the column further left comes first. Rows equal under all of them keep their
order.
-/

namespace Rollup

structure Directive where
  /-- The index of the column, from 0. -/
  column : Nat
  key : SortKey
  descending : Bool
  strength : Option Nat
deriving DecidableEq, Repr

namespace Directive

/-- Whether a directive is applied no later than another one. -/
def precedes (a b : Directive) : Bool :=
  match a.strength, b.strength with
  | some s, some t => s < t || (s = t && a.column ≤ b.column)
  | some _, none => true
  | none, some _ => false
  | none, none => a.column ≤ b.column

/-- Directives in the order in which they are applied. -/
def inOrder (ds : List Directive) : List Directive := ds.mergeSort precedes

def compare (d : Directive) (x y : SortValue) : Ordering :=
  if d.descending then (x.compare y).swap else x.compare y

/-- The keys of a row, one for every directive. -/
def keys (ds : List Directive) (row : List Text) : List SortValue :=
  ds.map fun d => d.key.extract (row.getD d.column [])

/-- The first directive under which the keys differ decides. -/
def compareKeys : List Directive → List SortValue → List SortValue → Ordering
  | d :: ds, x :: xs, y :: ys => (d.compare x y).then (compareKeys ds xs ys)
  | _, _, _ => .eq

/-- Sorts rows by directives that stand in order. -/
def sortRows (ds : List Directive) (rows : List (List Text)) : List (List Text) :=
  let keyed := rows.map fun row => (keys ds row, row)
  (keyed.mergeSort fun a b => (compareKeys ds a.1 b.1).isLE).map Prod.snd

/-! ## Blocks -/

def sameKeys : List SortValue → List SortValue → Bool
  | [], [] => true
  | x :: xs, y :: ys => x.same y && sameKeys xs ys
  | _, _ => false

/-- The indices at which a list of keys differs from the one before it. The second list has the
index `next`. -/
def changes (next : Nat) : List (List SortValue) → List Nat
  | a :: b :: rest =>
    if sameKeys a b then changes (next + 1) (b :: rest) else next :: changes (next + 1) (b :: rest)
  | _ => []

/-- The indices of the rows that start a new block, where the keys of the first `depth` directives
change. -/
def blockStarts (ds : List Directive) (depth : Nat) (rows : List (List Text)) : List Nat :=
  changes 1 (rows.map (keys (ds.take depth)))

end Directive

end Rollup
