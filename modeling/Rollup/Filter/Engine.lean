import Rollup.Fault
import Rollup.Number.Numeral
import Rollup.Table.Basic
import Rollup.Text.Class

/-! # Script engines

The language of filters is that of an engine, to which a filter is a script with one variable, the
row. The engine compiles scripts and evaluates what it compiled for the items of a row.
-/

namespace Rollup

namespace Filter

/-- What an element of the row is to a script. -/
inductive Item where
  | block (n : Nat)
  | number (x : Float)
  | text (t : Text)

/-- A cell is a number when it is a numeral, and else its trimmed text. -/
def Item.ofCell (cell : Text) : Item :=
  let t := Text.trim cell
  match Number.read? t with
  | some x => number x
  | none => text t

/-- The block of a row and its cells. -/
def rowItems (r : BodyRow) : List Item := .block r.block :: r.cells.map Item.ofCell

structure Engine where
  /-- What a script is compiled to. -/
  Program : Type
  /-- Compiles a script, or gives what is wrong with it in the words of the engine. -/
  compile (script : Text) : Except (Fault Text) Program
  /-- The truth value of a program for the items of the row. There is none when the evaluation fails
  or gives something else. -/
  truth? (p : Program) (items : List Item) : Option Bool

end Filter

/-- What is wrong with a filter. -/
inductive FilterProblem where
  | unknownColumn (name : Text)
  /-- What the engine says. -/
  | script (words : Text)
deriving DecidableEq, Repr

def FilterProblem.message : FilterProblem → Text
  | unknownColumn name => "unknown column `".toList ++ name ++ "`".toList
  | script words => words

abbrev FilterFault := Fault FilterProblem

def FilterFault.message (f : FilterFault) : Text := Fault.message FilterProblem.message f

end Rollup
