import Rollup.Failure
import Rollup.Format.Basic
import Rollup.Sort.Key
import Rollup.Text.Cut

/-! # Column specs

A column of the result is written as `formula;format;^sort;<mark>;'name'`, where the segments after
the formula are optional and stand in any order. Specs are separated by white space. Quotes protect
white space and semicolons, parentheses protect white space.
-/

namespace Rollup

/-- The sort segment of a spec. -/
structure SortSegment where
  key : SortKey
  descending : Bool
  strength : Option Nat
deriving DecidableEq, Repr

/-- A column spec whose formula has not been read yet. -/
structure ColumnSpec where
  /-- The spec as it is written. -/
  text : Text
  formula : Text
  format : CellFormat := {}
  sort : Option SortSegment := none
  invisible : Bool := false
  name : Option Text := none
deriving DecidableEq, Repr

namespace ColumnSpec

/-! ## Lists of specs -/

/-- How a spec goes on: in a quote, or in parentheses. -/
structure Nesting where
  quote : Option Char := none
  depth : Nat := 0
deriving DecidableEq, Repr

/-- The nesting after a character. -/
def Nesting.step (n : Nesting) (c : Char) : Nesting where
  quote := Text.quoteAfter n.quote c
  depth :=
    if n.quote.isSome then n.depth
    else if c = '(' then n.depth + 1
    else if c = ')' then n.depth - 1
    else n.depth

/-- Whether a character separates specs. -/
def Nesting.cuts (n : Nesting) (c : Char) : Bool := n = {} && Text.isWhite c

/-- Splits a list of specs. -/
def splitList (t : Text) : Except Failure (List Text) :=
  let pieces := Text.splitWhere Nesting.step Nesting.cuts {} t
  if (t.foldl Nesting.step {}).quote.isSome then
    .error (.spec (pieces.getLast?.getD []) .unmatchedQuote)
  else .ok (pieces.filter (· ≠ []))

/-! ## Segments -/

/-- Splits a spec at its semicolons. -/
def splitSegments (t : Text) : Except Failure (List Text) :=
  if (Text.openQuote t).isSome then .error (.spec t .unmatchedQuote)
  else .ok (Text.splitWhere Text.quoteAfter (fun quote c => quote.isNone && c = ';') none t)

/-- The sort key of a letter, and whether it sorts downwards. -/
def sortLetter? : Char → Option (SortKey × Bool)
  | 'a' => some (.alphabetic, false)
  | 'A' => some (.alphabetic, true)
  | 'n' => some (.numeric, false)
  | 'N' => some (.numeric, true)
  | 't' => some (.time, false)
  | 'T' => some (.time, true)
  | _ => none

/-- One more than the largest strength. -/
def strengthBound : Nat := Nat.pow 2 32

/-- Reads a sort segment after its caret: a letter and perhaps a strength. -/
def readSort : Text → Except SpecProblem SortSegment
  | [] => .error .missingSortKey
  | c :: digits =>
    match sortLetter? c with
    | none => .error (.unknownSortKey c)
    | some (key, descending) =>
      if digits = [] then .ok ⟨key, descending, none⟩
      else
        match Text.signedToNatBelow? strengthBound digits with
        | some strength => .ok ⟨key, descending, some strength⟩
        | none => .error (.invalidStrength digits)

/-- Adds a trimmed segment to a spec. -/
def addSegment (s : ColumnSpec) (segment : Text) : Except SpecProblem ColumnSpec :=
  match segment with
  | [] => .ok s
  | '^' :: sort =>
    if s.sort.isSome then .error .repeatedSort
    else (readSort sort).map fun sort => { s with sort := some sort }
  | '<' :: mark =>
    if mark.getLast? = some '>' then .ok { s with invisible := true } else .error .unclosedMark
  | segment =>
    match Text.unquote? segment with
    | some name =>
      if s.name.isSome then .error .repeatedName else .ok { s with name := some name }
    | none =>
      match s.format.merge segment with
      | .ok format => .ok { s with format := format }
      | .error fault => .error (.format fault.problem)

/-- Adds segments in turn. -/
def addSegments (s : ColumnSpec) : List Text → Except SpecProblem ColumnSpec
  | [] => .ok s
  | segment :: segments =>
    match s.addSegment (Text.trim segment) with
    | .ok s => addSegments s segments
    | .error problem => .error problem

/-- Reads one spec. -/
def read (t : Text) : Except Failure ColumnSpec :=
  match splitSegments t with
  | .error failure => .error failure
  | .ok segments =>
    let formula := Text.trim (segments.headD [])
    if formula = [] then .error (.spec t .emptyFormula)
    else
      match addSegments { text := t, formula := formula } segments.tail with
      | .ok s => .ok s
      | .error problem => .error (.spec t problem)

/-- Reads a list of specs. -/
def readList (t : Text) : Except Failure (List ColumnSpec) := do
  (← splitList t).mapM read

end ColumnSpec

end Rollup
