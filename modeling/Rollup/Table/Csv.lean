import Rollup.Failure
import Rollup.Number.Numeral
import Rollup.Table.Basic

/-! # Comma-separated values

A line holds the fields of one row. A field with a comma or a quote in it stands in quotes, and a
quote inside quotes is written twice. Blank lines are skipped, and separators are not written.
-/

namespace Rollup.Csv

/-! ## Reading -/

/-- A field as it is read. Quotes keep the white space around it. -/
structure Field where
  text : Text
  quoted : Bool
deriving DecidableEq, Repr

namespace Field

def empty : Field := ⟨[], false⟩

def value (f : Field) : Text := if f.quoted then f.text else Text.trim f.text

/-- Puts a character in front of the first field. -/
def push (c : Char) : List Field → List Field
  | [] => []
  | f :: fs => { f with text := c :: f.text } :: fs

/-- Marks the first field as quoted. -/
def mark : List Field → List Field
  | [] => []
  | f :: fs => { f with quoted := true } :: fs

end Field

/-- The fields of a text that starts inside or outside quotes, unless a quote stays open. -/
def readFields? : (inside : Bool) → Text → Option (List Field)
  | true, [] => none
  | true, '"' :: '"' :: t => (readFields? true t).map (Field.push '"')
  | true, '"' :: t => readFields? false t
  | true, c :: t => (readFields? true t).map (Field.push c)
  | false, [] => some [.empty]
  | false, '"' :: t => (readFields? true t).map Field.mark
  | false, ',' :: t => (readFields? false t).map (.empty :: ·)
  | false, c :: t => (readFields? false t).map (Field.push c)

/-- The fields of a line. -/
def readLine? (line : Text) : Option (List Text) :=
  (readFields? false line).map (·.map Field.value)

/-- The rows of lines, of which the first has the number `n`. -/
def readLines (n : Nat) : List Text → Except Failure (List (List Text))
  | [] => .ok []
  | line :: lines =>
    if Text.isBlank line then readLines (n + 1) lines
    else
      match readLine? line with
      | none => .error (.unclosedField n)
      | some cells => (readLines (n + 1) lines).map (cells :: ·)

/-- The table of a document, with its first row as the header when it has one. -/
def read (hasHeader : Bool) (document : Text) : Except Failure Table :=
  (readLines 1 (Text.lines document)).map fun rows =>
    if hasHeader then ⟨rows.head?, rows.tail.map .cells⟩ else ⟨none, rows.map .cells⟩

/-- The table in a document, which has no name. -/
def find (t : Table) (name : Text) : Except Failure Table :=
  if name = [] then .ok t else .error (.tableNotFound name)

/-! ## Rendering -/

def startsFormula (c : Char) : Bool := c = '=' || c = '+' || c = '-' || c = '@'

/-- Whether spreadsheets would take a cell for a formula. Numbers are none. -/
def needsGuard (cell : Text) : Bool :=
  (cell.dropWhile fun c => c = ' ' || c = '\t').head?.any startsFormula &&
    (Number.read? (Text.trim cell)).isNone

/-- A cell with an apostrophe in front when spreadsheets would take it for a formula. -/
def guarded (cell : Text) : Text := if needsGuard cell then '\'' :: cell else cell

def needsQuotes (t : Text) : Bool :=
  t.any fun c => c = ',' || c = '"' || c = '\n' || c = '\r'

def doubleQuotes (t : Text) : Text := t.flatMap fun c => if c = '"' then ['"', '"'] else [c]

/-- A text as a field. -/
def encode (t : Text) : Text := if needsQuotes t then '"' :: doubleQuotes t ++ ['"'] else t

def renderCell (cell : Text) : Text := encode (guarded cell)

def renderLine (cells : List Text) : Text := Text.joinWith [','] (cells.map renderCell)

def render (t : Table) : Text := t.lines.flatMap fun cells => renderLine cells ++ ['\n']

end Rollup.Csv
