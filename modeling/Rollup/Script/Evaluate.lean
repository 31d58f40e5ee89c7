import Rollup.Filter.Engine
import Rollup.Script.Datum
import Rollup.Script.Term

/-! # Evaluating scripts

A script is evaluated for one row. Nothing comes of a script that fails.
-/

namespace Rollup.Script

def Datum.ofItem : Filter.Item → Datum
  | .block n => int n
  | .number x => float x
  | .text t => text t

def UnaryOperator.result? : UnaryOperator → Datum → Option Datum
  | minus, d => d.neg?
  | plus, .int n => some (.int n)
  | plus, .float x => some (.float x)
  | plus, _ => none
  | not, d => d.bool?.map fun b => .bool (!b)

/-- Applies an operator to data. Those that may leave out their right operand need truth values. -/
def BinaryOperator.result? (op : BinaryOperator) (a b : Datum) : Option Datum :=
  match op with
  | or => do return .bool ((← a.bool?) || (← b.bool?))
  | and => do return .bool ((← a.bool?) && (← b.bool?))
  | equal => some (.bool (Datum.same a b))
  | notEqual => some (.bool (Datum.compare a b).findsDifference)
  | isIn => Datum.contains? b a
  | less => Datum.ordered? [.lt] a b
  | lessEqual => Datum.ordered? [.lt, .eq] a b
  | greater => Datum.ordered? [.gt] a b
  | greaterEqual => Datum.ordered? [.gt, .eq] a b
  | plus => Datum.add? a b
  | minus => Datum.sub? a b
  | times => Datum.mul? a b
  | divide => Datum.div? a b
  | modulo => Datum.mod? a b
  | power => Datum.pow? a b

/-- The left operand with which an operator does not look at its right one. -/
def BinaryOperator.deciding? : BinaryOperator → Option Bool
  | or => some true
  | and => some false
  | _ => none

namespace Term

mutual

def evaluate (data : List Datum) : Term → Option Datum
  | int n => some (.int n)
  | float x => some (.float x)
  | string t => some (.text t)
  | bool b => some (.bool b)
  | row _ => some (.list data)
  | list ts => (evaluateAll data ts).map .list
  | element t index => do Datum.element? (← t.evaluate data) (← index.evaluate data)
  | property t name => do Datum.property? name (← t.evaluate data)
  | call name args => do Datum.call? name (← evaluateAll data args)
  | unary op t => do op.result? (← t.evaluate data)
  | binary op lhs rhs => do
    let a ← lhs.evaluate data
    match op.deciding?, a with
    | some decided, .bool b =>
      if b = decided then some (.bool b) else op.result? (.bool b) (← rhs.evaluate data)
    | some _, _ => none
    | none, a => op.result? a (← rhs.evaluate data)

def evaluateAll (data : List Datum) : List Term → Option (List Datum)
  | [] => some []
  | t :: ts => do return (← t.evaluate data) :: (← evaluateAll data ts)

end

end Term

/-- A small part of a scripting language: terms without comments, statements and variables. -/
def engine : Filter.Engine where
  Program := Term
  compile script := (Term.read script).mapError fun f => ⟨f.problem.message, f.offset⟩
  truth? t items := (t.evaluate (items.map Datum.ofItem)).bind Datum.bool?

end Rollup.Script
