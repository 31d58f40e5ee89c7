import Rollup.Formula.Function
import Rollup.Number.Shortest
import Rollup.Table.Basic
import Rollup.Value.Operator

/-! # Formulas as trees

A formula is read with columns as names. Resolving it puts a position in place of every name:
positions count from 1, and 0 is the number of the block a row stands in.
-/

namespace Rollup

inductive Expr where
  | number (n : Float)
  /-- A column as it was written: a bare name, a dollar sign with a number, or a quoted name. -/
  | name (t : Text) (quoted : Bool)
  | column (position : Nat)
  | neg (e : Expr)
  | binary (op : Operator) (lhs rhs : Expr)
  | call (f : Function) (args : List Expr)

namespace Expr

/-! ## Columns -/

mutual

/-- The positions in the tree, in the order in which they stand. -/
def columns : Expr → List Nat
  | number _ => []
  | name _ _ => []
  | column position => [position]
  | neg e => e.columns
  | binary _ lhs rhs => lhs.columns ++ rhs.columns
  | call _ args => columnsOfAll args

def columnsOfAll : List Expr → List Nat
  | [] => []
  | e :: es => e.columns ++ columnsOfAll es

end

/-- Puts a position into an ascending list without repetitions. -/
def insertPosition (p : Nat) : List Nat → List Nat
  | [] => [p]
  | q :: qs => if p < q then p :: q :: qs else if p = q then q :: qs else q :: insertPosition p qs

/-- The positions in the tree, ascending, each once. -/
def positions (e : Expr) : List Nat := e.columns.foldr insertPosition []

/-- The position, when the whole formula is one column. -/
def asColumn? : Expr → Option Nat
  | column position => some position
  | _ => none

mutual

/-- Puts positions in place of names. The leftmost name that has none ends it. -/
def resolve {ε : Type} (position : Text → Bool → Except ε Nat) : Expr → Except ε Expr
  | number n => .ok (number n)
  | name t quoted => (position t quoted).map column
  | column p => .ok (column p)
  | neg e => (resolve position e).map neg
  | binary op lhs rhs =>
    match resolve position lhs with
    | .error err => .error err
    | .ok lhs => (resolve position rhs).map (binary op lhs)
  | call f args => (resolveAll position args).map (call f)

def resolveAll {ε : Type} (position : Text → Bool → Except ε Nat) :
    List Expr → Except ε (List Expr)
  | [] => .ok []
  | e :: es =>
    match resolve position e with
    | .error err => .error err
    | .ok e => (resolveAll position es).map (e :: ·)

end

/-! ## Printing -/

/-- How tightly an operator binds. The unary minus stands between the products and the powers. -/
def operatorStrength : Operator → Nat
  | .add | .sub => 1
  | .mul | .div => 2
  | .pow => 4

def negStrength : Nat := 3

def atomStrength : Nat := 5

def strength : Expr → Nat
  | binary op _ _ => operatorStrength op
  | neg _ => negStrength
  | _ => atomStrength

def parenthesize (needed : Bool) (t : Text) : Text := if needed then '(' :: t ++ [')'] else t

mutual

/-- The formula as text, with the parentheses that its tree needs. Powers group to the right, the
other operators to the left. -/
def print : Expr → Text
  | number n => Number.shortest n
  | name t quoted => if quoted then '\'' :: t ++ ['\''] else t
  | column position =>
    if position = blockPosition then blockName else '$' :: Text.ofNat position
  | neg e => '-' :: parenthesize (e.strength < negStrength) e.print
  | binary op lhs rhs =>
    let s := operatorStrength op
    let (left, right) := if op = .pow then (s + 1, s) else (s, s + 1)
    parenthesize (lhs.strength < left) lhs.print ++ op.symbol ::
      parenthesize (rhs.strength < right) rhs.print
  | call f args => f.name ++ '(' :: printArguments args ++ [')']

def printArguments : List Expr → Text
  | [] => []
  | [e] => e.print
  | e :: es => e.print ++ ',' :: printArguments es

end

end Expr

end Rollup
