import Rollup.Filter.Engine
import Rollup.Format.Printf
import Rollup.Formula.Token

/-! # Failures

Everything that can end a run, by its cause, with its wording.
-/

namespace Rollup

/-- What is wrong with a column spec. -/
inductive SpecProblem where
  | unmatchedQuote
  | emptyFormula
  | missingSortKey
  | unknownSortKey (c : Char)
  | invalidStrength (t : Text)
  | repeatedSort
  | unclosedMark
  | repeatedName
  | format (p : FormatProblem)
  | noSpecs
deriving DecidableEq, Repr

def SpecProblem.message : SpecProblem → Text
  | unmatchedQuote => "unmatched quote".toList
  | emptyFormula => "empty formula".toList
  | missingSortKey => "missing sort key after `^`".toList
  | unknownSortKey c =>
    "unknown sort key `".toList ++ c :: "` (expected one of a A n N t T)".toList
  | invalidStrength t => "invalid sort strength `".toList ++ t ++ "`".toList
  | repeatedSort => "more than one sort segment".toList
  | unclosedMark => "unterminated `<...>` segment".toList
  | repeatedName => "more than one name segment".toList
  | format p => p.message
  | noSpecs => "no column specs given".toList

/-- Why a name is no column. -/
inductive ColumnProblem where
  | invalidPosition
  | outOfRange (width : Nat)
  | noHeader
  | notInHeader
deriving DecidableEq, Repr

def ColumnProblem.message : ColumnProblem → Text
  | invalidPosition => "invalid column position".toList
  | outOfRange width =>
    "position out of range (table has ".toList ++ Text.ofNat width ++ " columns)".toList
  | noHeader => "table has no header, use $N to refer to columns".toList
  | notInHeader => "no such column in the header".toList

/-- A name that is no column. -/
structure ColumnFault where
  name : Text
  problem : ColumnProblem
deriving DecidableEq, Repr

def ColumnFault.detail (f : ColumnFault) : Text :=
  " column `".toList ++ f.name ++ "`: ".toList ++ f.problem.message

/-- Why a formula or a filter cannot be used. -/
inductive CompileProblem where
  | formula (f : FormulaFault)
  | filter (f : FilterFault)
  | column (f : ColumnFault)
deriving DecidableEq, Repr

def CompileProblem.message : CompileProblem → Text
  | formula f => f.message
  | filter f => f.message
  | column f => "unknown".toList ++ f.detail

/-- Why a file cannot be read. -/
inductive ReadProblem where
  | missing
  | directory
  /-- Anything else, in the words of the system. -/
  | other (words : Text)
deriving DecidableEq, Repr

def ReadProblem.message : ReadProblem → Text
  | missing => "No such file or directory (os error 2)".toList
  | directory => "Is a directory (os error 21)".toList
  | other words => words

inductive Failure where
  | spec (text : Text) (problem : SpecProblem)
  | column (fault : ColumnFault)
  | compile (expression : Text) (problem : CompileProblem)
  | tableNotFound (name : Text)
  | unreadable (problem : ReadProblem)
  /-- A quoted field of this line has no end. Lines count from 1. -/
  | unclosedField (line : Nat)
deriving DecidableEq, Repr

def Failure.message : Failure → Text
  | .spec text problem =>
    "Invalid column spec `".toList ++ text ++ "`: ".toList ++ problem.message
  | column fault => "Unknown".toList ++ fault.detail
  | compile expression problem =>
    "Cannot compile `".toList ++ expression ++ "`: ".toList ++ problem.message
  | tableNotFound name => "Table not found: ".toList ++ name
  | unreadable problem => "IO error: ".toList ++ problem.message
  | unclosedField line =>
    "Parse error at line ".toList ++ Text.ofNat line ++ ": unterminated quoted field".toList

end Rollup
