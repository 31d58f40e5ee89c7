import Rollup.Number.Numeral
import Rollup.Table.Shelf
import Rollup.Text.Case

/-! # Pipe tables

A line that starts with `|` belongs to a table, and lines that follow each other belong to the same
one. Rules such as `|---+---|` or `|:--|--:|` separate its rows, and a rule under the first row
makes it the header. A line `#+NAME: x` names the next table.
-/

namespace Rollup.Pipe

/-! ## Reading -/

def isTableLine (line : Text) : Bool := (Text.trimStart line).head? = some '|'

/-- The trimmed texts between the pipes. -/
def splitCells (line : Text) : List Text :=
  let t := Text.trim line
  let t := (Text.after? ['|'] t).getD t
  let t := (Text.before? '|' t).getD t
  (Text.split '|' t).map Text.trim

/-- Whether a cell is part of a rule: dashes, and colons that align. -/
def isRuleCell (cell : Text) : Bool :=
  Text.contains '-' cell && cell.all fun c => c = '-' || c = ':'

def isRule (line : Text) : Bool :=
  (Text.after? ['|', '-'] (Text.trim line)).isSome || (splitCells line).all isRuleCell

def readRow (line : Text) : Row := if isRule line then .separator else .cells (splitCells line)

def isSeparator (r : Row) : Bool := r = .separator

/-- Without the separators at both ends. -/
def trimSeparators (rows : List Row) : List Row :=
  ((rows.dropWhile isSeparator).reverse.dropWhile isSeparator).reverse

/-- The table of these lines. -/
def readTable (lines : List Text) : Table :=
  match trimSeparators (lines.map readRow) with
  | .cells header :: .separator :: rows => ⟨some header, rows⟩
  | rows => ⟨none, rows⟩

/-- The start of a line that gives a name, in any case. -/
def nameKeyword : Text := "#+name:".toList

/-- The name that a line gives. -/
def nameIn? (line : Text) : Option Text :=
  let t := Text.trim line
  let name := Text.trim (t.drop nameKeyword.length)
  if Text.asciiLower (t.take nameKeyword.length) = nameKeyword ∧ name ≠ [] then some name else none

/-- The name for the next table after a line outside tables. A line with another keyword leaves it,
any other line ends it. -/
def nextName (name : Option Text) (line : Text) : Option Text :=
  match nameIn? line with
  | some name => some name
  | none => if (Text.after? ['#', '+'] (Text.trimStart line)).isSome then name else none

/-- The tables of these lines, of which the first has the given name. -/
def readTables (name : Option Text) : List Text → List (Option Text × Table)
  | [] => []
  | line :: lines =>
    if isTableLine line then
      let more := lines.takeWhile isTableLine
      (name, readTable (line :: more)) :: readTables none (lines.drop more.length)
    else readTables (nextName name line) lines
termination_by lines => lines.length
decreasing_by
  all_goals simp only [List.length_cons, List.length_drop]; omega

/-- The tables of a document. -/
def read (document : Text) : Shelf := ⟨readTables none (Text.lines document)⟩

/-! ## Rendering -/

/-- The width of a column, which is that of its longest cell and at least 1. -/
def columnWidth (lines : List (List Text)) (i : Nat) : Nat :=
  (lines.map fun cells => (cells.getD i []).length).foldl max 1

def columnWidths (t : Table) : List Nat := (List.range t.width).map (columnWidth t.lines)

/-- A cell on the left, or on the right when it is a numeral in a data row. It fails for a width that
cannot be formatted. -/
def alignCell? (alignNumbers : Bool) (width : Nat) (cell : Text) : Option Text :=
  if alignNumbers && (Number.read? cell).isSome then Text.padLeft? width cell
  else Text.padRight? width cell

def renderRule (widths : List Nat) : Text :=
  '|' :: Text.joinWith ['+'] (widths.map fun w => List.replicate (w + 2) '-') ++ ['|', '\n']

def renderCells? (alignNumbers : Bool) (widths : List Nat) (cells : List Text) : Option Text := do
  let shown ← widths.zipIdx.mapM fun (w, i) => alignCell? alignNumbers w (cells.getD i [])
  return "| ".toList ++ Text.joinWith " | ".toList shown ++ " |\n".toList

def renderRow? (widths : List Nat) : Row → Option Text
  | .separator => some (renderRule widths)
  | .cells cells => renderCells? true widths cells

def renderHeader? (widths : List Nat) : Option (List Text) → Option Text
  | none => some []
  | some cells => do return (← renderCells? false widths cells) ++ renderRule widths

/-- Renders a table. It fails if a column is too wide to be formatted. -/
def render? (t : Table) : Option Text := do
  let widths := columnWidths t
  return (← renderHeader? widths t.header) ++ (← t.rows.mapM (renderRow? widths)).flatten

end Rollup.Pipe
