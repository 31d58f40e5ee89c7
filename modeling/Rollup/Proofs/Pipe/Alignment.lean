import Mathlib.Algebra.GroupWithZero.Nat
import Mathlib.Data.List.Forall2
import Rollup.Proofs.Pipe.Lines

/-! # The columns of a rendered table

All lines of a rendered table have the same length, and every column has one place in all of them.
Pipes stand around the cells of a row, and plus signs between the dashes of a rule.
-/

namespace Rollup.Pipe

/-! ## Texts between marks -/

theorem joinWith_cons (mark : Char) (text : Text) (after : List Text) :
    Text.joinWith [mark] (text :: after) = text ++ after.flatMap (mark :: ·) := by
  induction after generalizing text with
  | nil => simp [Text.joinWith]
  | cons next after ih =>
    have hnext := ih next
    unfold Text.joinWith at hnext ⊢
    rw [List.intercalate_cons_cons, hnext]
    simp

theorem joinWith_append_cons (mark : Char) (before : List Text) (text : Text)
    (after : List Text) : Text.joinWith [mark] (before ++ text :: after) =
      before.flatMap (· ++ [mark]) ++ text ++ after.flatMap (mark :: ·) := by
  induction before with
  | nil => exact joinWith_cons mark text after
  | cons first before ih =>
    obtain ⟨next, later, hnext⟩ : ∃ next later, before ++ text :: after = next :: later :=
      List.exists_cons_of_ne_nil (by simp)
    unfold Text.joinWith at ih ⊢
    rw [List.cons_append, hnext, List.intercalate_cons_cons, ← hnext, ih]
    simp

/-- The line up to the mark before a text. -/
def leftOf (mark : Char) (before : List Text) : Text := '|' :: before.flatMap (· ++ [mark])

theorem barLine_append_cons (mark : Char) (before : List Text) (text : Text) (after : List Text) :
    barLine mark (before ++ text :: after) =
      leftOf mark before ++ (text ++ (after.flatMap (mark :: ·) ++ ['|'])) := by
  simp [barLine, leftOf, joinWith_append_cons]

theorem length_leftOf (mark : Char) (before : List Text) :
    (leftOf mark before).length = (before.map fun text => text.length + 1).sum + 1 := by
  simp [leftOf, List.length_flatMap]

theorem getLast?_leftOf (mark : Char) (before : List Text) :
    (leftOf mark before).getLast? = some (if before = [] then '|' else mark) := by
  rcases List.eq_nil_or_concat' before with rfl | ⟨before, text, rfl⟩
  · rfl
  · have hlast : leftOf mark (before ++ [text]) = leftOf mark before ++ text ++ [mark] := by
      simp [leftOf]
    rw [hlast, List.getLast?_concat]
    simp

theorem length_barLine (mark : Char) {texts : List Text} (hne : texts ≠ []) :
    (barLine mark texts).length = (leftOf mark texts).length := by
  obtain ⟨before, text, rfl⟩ := (List.eq_nil_or_concat' texts).resolve_left hne
  simp [barLine_append_cons, leftOf]

section

variable {mark : Char} {widths : List ℕ} {texts : List Text}

/-- The position of the mark before a column, or of the last one for the number of columns. -/
def boundary (widths : List ℕ) (i : ℕ) : ℕ := ((widths.take i).map (· + 3)).sum

variable (hwidths : texts.map List.length = widths.map (· + 2))

include hwidths

theorem length_leftOf_take (i : ℕ) :
    (leftOf mark (texts.take i)).length = boundary widths i + 1 := by
  have hlengths : texts.map (fun text => text.length + 1) = widths.map (· + 3) := by
    simpa [Function.comp_def] using congrArg (List.map (· + 1)) hwidths
  rw [length_leftOf, boundary, List.map_take, hlengths, List.map_take]

theorem length_barLine_eq (hne : texts ≠ []) :
    (barLine mark texts).length = boundary widths texts.length + 1 := by
  rw [length_barLine mark hne, ← length_leftOf_take hwidths, List.take_length]

theorem barLine_mark (hne : texts ≠ []) {i : ℕ} (hi : i ≤ texts.length) :
    (barLine mark texts)[boundary widths i]? =
      some (if 0 < i ∧ i < texts.length then mark else '|') := by
  have hleft : (leftOf mark (texts.take i)).length = boundary widths i + 1 :=
    length_leftOf_take hwidths i
  rcases hi.lt_or_eq with hi | rfl
  · have htexts : texts = texts.take i ++ texts[i] :: texts.drop (i + 1) := by simp
    have hlast := getLast?_leftOf mark (texts.take i)
    rw [List.getLast?_eq_getElem?, hleft, Nat.add_sub_cancel] at hlast
    rw [htexts, barLine_append_cons, List.getElem?_append_left (by omega), hlast]
    simp [hne, hi, Nat.pos_iff_ne_zero]
  · have hlast : (barLine mark texts).getLast? = some '|' := getLast?_barLine mark texts
    rw [List.getLast?_eq_getElem?, length_barLine_eq hwidths hne, Nat.add_sub_cancel] at hlast
    simpa using hlast

theorem barLine_column {i : ℕ} (hi : i < texts.length) :
    ((barLine mark texts).drop (boundary widths i + 1)).take texts[i].length = texts[i] := by
  have htexts : texts = texts.take i ++ texts[i] :: texts.drop (i + 1) := by simp
  have hleft : (leftOf mark (texts.take i)).length = boundary widths i + 1 :=
    length_leftOf_take hwidths i
  have hline := barLine_append_cons mark (texts.take i) texts[i] (texts.drop (i + 1))
  rw [← htexts] at hline
  rw [hline, ← hleft, List.drop_left, List.take_left]

end

/-! ## Lines of a table -/

variable {t : Table} {cells : List Text}

theorem length_le_columnWidth (h : cells ∈ t.lines) (i : ℕ) :
    (cells.getD i []).length ≤ columnWidth t.lines i := by
  have hmem : (cells.getD i []).length ∈ 1 :: t.lines.map fun cells => (cells.getD i []).length :=
    List.mem_cons_of_mem _ (List.mem_map_of_mem (f := fun cells => (cells.getD i []).length) h)
  exact List.le_max_of_mem hmem

theorem length_slot {alignNumbers : Bool} {width : ℕ} {cell : Text} (h : cell.length ≤ width) :
    (slot alignNumbers width cell).length = width + 2 := by
  unfold slot alignedCell Text.padLeft Text.padRight
  split <;> simp <;> omega

/-- What stands in a column between two marks: dashes, or a cell among blanks. -/
def Fills (i : ℕ) (text : Text) : Row → Prop
  | .separator => ∀ c ∈ text, c = '-'
  | .cells cells => ∃ m n, text = List.replicate m ' ' ++ cells.getD i [] ++ List.replicate n ' '

/-- A line as long as all the others, with its marks and its columns at the same positions. -/
structure IsAligned (t : Table) (row : Row) (text : Text) : Prop where
  length_eq : text.length = boundary (columnWidths t) t.width + 1
  mark : ∀ i ≤ t.width, text[boundary (columnWidths t) i]? =
    some (if 0 < i ∧ i < t.width ∧ row = .separator then '+' else '|')
  column : ∀ i < t.width, Fills i
    ((text.drop (boundary (columnWidths t) i + 1)).take (columnWidth t.lines i + 2)) row

/-- A line is aligned when it has a text as wide as the column for every column. -/
theorem isAligned_barLine {mark : Char} {texts : List Text} {row : Row} (hwidth : 0 < t.width)
    (hmark : mark = if row = .separator then '+' else '|')
    (hlength : texts.length = t.width) (hfills : ∀ i (hi : i < texts.length),
      texts[i].length = columnWidth t.lines i + 2 ∧ Fills i texts[i] row) :
    IsAligned t row (barLine mark texts) := by
  have hne : texts ≠ [] := List.ne_nil_of_length_pos (hlength ▸ hwidth)
  have hwidths : texts.map List.length = (columnWidths t).map (· + 2) := by
    apply List.ext_getElem
    · simp [columnWidths, hlength]
    · intro i hi _
      simp [columnWidths, (hfills i (by simpa using hi)).1]
  constructor
  case length_eq => rw [length_barLine_eq hwidths hne, hlength]
  case mark =>
    intro i hi
    rw [barLine_mark hwidths hne (hlength ▸ hi), hlength, hmark]
    split <;> split <;> simp_all
  case column =>
    intro i hi
    obtain ⟨hlen, hfill⟩ := hfills i (hlength ▸ hi)
    rw [← hlen, barLine_column hwidths]
    exact hfill

theorem isAligned_ruleLine (hwidth : 0 < t.width) :
    IsAligned t .separator (ruleLine (columnWidths t)) := by
  apply isAligned_barLine hwidth (by simp) (by simp [columnWidths])
  intro i hi
  simp [columnWidths, Fills]

theorem isAligned_cellsLine {alignNumbers : Bool} (hwidth : 0 < t.width) (h : cells ∈ t.lines) :
    IsAligned t (.cells cells) (cellsLine alignNumbers (columnWidths t) cells) := by
  rw [cellsLine_eq]
  apply isAligned_barLine hwidth (by simp) (by simp)
  intro i hi
  rw [List.getElem_map, List.getElem_range]
  obtain ⟨m, n, heq⟩ := alignedCell_eq alignNumbers (columnWidth t.lines i) (cells.getD i [])
  refine ⟨length_slot (length_le_columnWidth h i), m + 1, n + 1, ?_⟩
  rw [slot, heq, List.replicate_succ, List.replicate_succ']
  simp

/-- A table can be rendered if all its cells fit. The lines of a rendered table are those of its
header, of the rule under it and of its rows. All have the same length, with the marks of the columns
and the columns at the same positions. -/
theorem lines_render_isAligned {t : Table} (hwidth : 0 < t.width)
    (hcells : ∀ cells ∈ t.lines, ∀ cell ∈ cells, '\n' ∉ cell) :
    ((render? t).isSome ↔ Fits t) ∧
      ∀ text, render? t = some text →
        List.Forall₂ (IsAligned t) t.written (Text.lines text) := by
  refine ⟨(givenIf_render? hwidth).isSome_iff, fun text htext => ?_⟩
  have hrows : List.Forall₂ (IsAligned t) t.rows (t.rows.map (rowLine (columnWidths t))) := by
    rw [List.forall₂_map_right_iff, List.forall₂_same]
    intro row hrow
    cases row with
    | separator => exact isAligned_ruleLine hwidth
    | cells cells =>
      exact isAligned_cellsLine hwidth (List.mem_append_right _ (Table.mem_dataRows.mpr hrow))
  rw [((givenIf_render? hwidth).eq_some_iff.mp htext).2, lines_writtenLines hcells, writtenLines,
    Table.written]
  cases hheader : t.header with
  | none => exact hrows
  | some header =>
    have hmem : header ∈ t.lines := by simp [Table.lines, hheader]
    exact .cons (isAligned_cellsLine hwidth hmem) (.cons (isAligned_ruleLine hwidth) hrows)

/-- The header is shorter than the table is wide, one row is empty, and a cell is a pipe. -/
theorem lines_render_isAligned_ragged :
    let t : Table := ⟨some [['k']], [.cells [['|'], "12".toList], .separator, .cells []]⟩
    let text := "| k |    |\n|---+----|\n| | | 12 |\n|---+----|\n|   |    |\n".toList
    (0 < t.width ∧ ∀ cells ∈ t.lines, ∀ cell ∈ cells, '\n' ∉ cell) ∧ render? t = some text ∧
      List.Forall₂ (IsAligned t) t.written (Text.lines text) := by
  intro t text
  have hcells : ∀ cells ∈ t.lines, ∀ cell ∈ cells, '\n' ∉ cell := by decide
  have htext : render? t = some text := by decide +kernel
  exact ⟨⟨by decide, hcells⟩, htext, (lines_render_isAligned (by decide) hcells).2 text htext⟩

end Rollup.Pipe
