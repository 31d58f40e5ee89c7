import Rollup.Proofs.Pipe.Lines

/-! # Reading rendered tables

A table that was read comes back from its rendering, with short lines padded. A table with a header
and rows comes back if and only if none of its lines looks like a rule. Cells that are too long are
what rendering fails for.
-/

namespace Rollup.Pipe

/-! ## From rows to a table -/

/-- The table of rows as they are written. The first row is the header if a separator follows it. -/
def ofWritten : List Row → Table
  | .cells header :: .separator :: rows => ⟨some header, rows⟩
  | rows => ⟨none, rows⟩

theorem readTable_eq (ls : List Text) :
    readTable ls = ofWritten (trimSeparators (ls.map readRow)) := rfl

theorem written_ofWritten (rows : List Row) : (ofWritten rows).written = rows := by
  unfold ofWritten
  split <;> rfl

theorem trimSeparators_eq (rows : List Row) :
    trimSeparators rows = (rows.dropWhile isSeparator).rdropWhile isSeparator := rfl

/-- Rows that start and end with cells are not trimmed. -/
theorem trimSeparators_eq_self {rows : List Row} (hhead : ∀ row ∈ rows.head?, row ≠ .separator)
    (hlast : ∀ row ∈ rows.getLast?, row ≠ .separator) : trimSeparators rows = rows := by
  have hstart : rows.dropWhile isSeparator = rows := by
    cases rows with
    | nil => rfl
    | cons row rows => simpa [List.dropWhile_eq_self_iff, isSeparator] using hhead
  rw [trimSeparators_eq, hstart, List.rdropWhile_eq_self_iff]
  intro hne
  simpa [isSeparator] using hlast _ (List.getLast?_eq_some_getLast hne)

/-- Trimming takes no cells away. -/
theorem filterMap_cells_trimSeparators (rows : List Row) :
    (trimSeparators rows).filterMap Row.cells? = rows.filterMap Row.cells? := by
  have hdrop : ∀ rows : List Row,
      (rows.dropWhile isSeparator).filterMap Row.cells? = rows.filterMap Row.cells? := by
    intro rows
    induction rows with
    | nil => rfl
    | cons row rows ih =>
      cases row with
      | separator => exact ih
      | cells cs => rfl
  rw [trimSeparators, List.filterMap_reverse, hdrop, ← List.filterMap_reverse, List.reverse_reverse,
    hdrop]

/-! ## The tables of a document -/

theorem readTables_eq {name : Option Text} {ls : List Text} (hne : ls ≠ [])
    (h : ∀ line ∈ ls, isTableLine line) : readTables name ls = [(name, readTable ls)] := by
  obtain ⟨line, ls, rfl⟩ := List.exists_cons_of_ne_nil hne
  obtain ⟨hline, hls⟩ := List.forall_mem_cons.mp h
  rw [readTables, if_pos hline, List.takeWhile_eq_self_iff.mpr hls]
  dsimp only
  rw [List.drop_length, readTables]

/-- A rendered table is read as the only one of its text, from its rows as they are read back. -/
theorem read_render {t : Table} (hcells : ∀ cells ∈ t.lines, ∀ c ∈ cells, IsCell c)
    (hwidth : 0 < t.width) {text : Text} (htext : render? t = some text) :
    read text = ⟨[(none, ofWritten (trimSeparators (t.written.map (reread t.width))))]⟩ := by
  have hne : writtenLines t ≠ [] := by
    intro hnil
    have hmap := map_readRow_writtenLines hcells hwidth
    rw [hnil] at hmap
    apply Table.lines_ne_nil hwidth
    rw [Table.lines_eq, List.map_eq_nil_iff.mp hmap.symm]
    rfl
  have hfeed : ∀ cells ∈ t.lines, ∀ c ∈ cells, '\n' ∉ c := fun cells hmem c hc =>
    (hcells cells hmem c hc).no_newline
  rw [((givenIf_render? hwidth).eq_some_iff.mp htext).2]
  unfold read
  rw [lines_writtenLines hfeed, readTables_eq hne fun line => isTableLine_of_mem, readTable_eq,
    map_readRow_writtenLines hcells hwidth]

/-- The text between the outer pipes of a line. -/
def between (line : Text) : Text :=
  let t := Text.trim line
  let t := (Text.after? ['|'] t).getD t
  (Text.before? '|' t).getD t

theorem splitCells_eq (line : Text) :
    splitCells line = (Text.split '|' (between line)).map Text.trim := rfl

/-- What a line can be read as: at least one cell, and not only cells of a rule. -/
structure IsLine (cells : List Text) : Prop where
  ne_nil : cells ≠ []
  isCell : ∀ c ∈ cells, IsCell c
  not_rule : ¬ cells.all isRuleCell

/-- Padding adds no cell of a rule. -/
theorem reread_cells {width : ℕ} {cells : List Text} (h : ¬ cells.all isRuleCell) :
    reread width (.cells cells) = .cells (padCells width cells) := by
  apply if_neg
  intro hall
  apply h
  unfold padCells at hall
  rw [List.all_append, Bool.and_eq_true] at hall
  exact hall.1

/-- Rows that are not read as rules are only padded. -/
theorem map_reread_written {t : Table} (h : ∀ cells ∈ t.lines, ¬ cells.all isRuleCell) :
    t.written.map (reread t.width) = t.written.map (Row.padded t.width) := by
  apply List.map_congr_left
  intro row hrow
  cases row with
  | separator => rfl
  | cells cells => exact reread_cells (h cells (Table.mem_lines.mpr hrow))

instance (cell : Text) : Decidable (IsCell cell) :=
  decidable_of_iff (Text.trim cell = cell ∧ '|' ∉ cell ∧ '\n' ∉ cell)
    ⟨fun h => ⟨h.1, h.2.1, h.2.2⟩, fun h => ⟨h.trimmed, h.no_pipe, h.no_newline⟩⟩

theorem filterMap_cells_reread {width : ℕ} {rows : List Row}
    (h : ∀ cells, .cells cells ∈ rows → width ≤ cells.length) :
    (rows.map (reread width)).filterMap Row.cells? =
      (rows.filterMap Row.cells?).filter fun cells => !cells.all isRuleCell := by
  induction rows with
  | nil => rfl
  | cons row rows ih =>
    have hrows := ih fun cells hcells => h cells (List.mem_cons_of_mem _ hcells)
    cases row with
    | separator => exact hrows
    | cells cells =>
      have hcells : (Row.cells cells :: rows).filterMap Row.cells? =
          cells :: rows.filterMap Row.cells? := rfl
      rw [List.map_cons, reread, padCells_eq_self (h cells List.mem_cons_self), hcells]
      split
      case isTrue hall =>
        rw [List.filter_cons_of_neg (by simpa using hall)]
        exact hrows
      case isFalse hall =>
        rw [List.filter_cons_of_pos (by simpa using hall), ← hrows]
        rfl

/-- The table is rendered and comes back if and only if all cells fit and no line is taken for a
rule. The rows are what keeps the separator under the header from being the last one, which is
trimmed. -/
theorem read_render_eq_iff {t : Table} {header : List Text} (hheader : t.header = some header)
    (hne : header ≠ []) (hlen : ∀ cells ∈ t.dataRows, cells.length = header.length)
    (hcells : ∀ cells ∈ t.lines, ∀ c ∈ cells, IsCell c) (hrows : t.rows ≠ [])
    (hlast : t.rows.getLast? ≠ some .separator) :
    ((render? t).isSome ↔ Fits t) ∧
      ∀ text, render? t = some text →
        ((read text).find? [] = some t ↔ ∀ cells ∈ t.lines, ¬ cells.all isRuleCell) := by
  have hlines : ∀ cells ∈ t.lines, cells.length = header.length := by
    simpa [Table.lines, hheader] using hlen
  have hwidth : t.width = header.length :=
    Table.width_eq (by simp [Table.lines, hheader]) hlines
  have hpos : 0 < t.width := hwidth ▸ List.length_pos_of_ne_nil hne
  have hlong : ∀ cells, .cells cells ∈ t.written → t.width ≤ cells.length := by
    intro cells hmem
    rw [hwidth, hlines cells (Table.mem_lines.mpr hmem)]
  have hwritten : t.written = .cells header :: .separator :: t.rows := by
    simp [Table.written, hheader]
  refine ⟨(givenIf_render? hpos).isSome_iff, fun text htext => ?_⟩
  have hback : (read text).find? [] =
      some (ofWritten (trimSeparators (t.written.map (reread t.width)))) := by
    rw [read_render hcells hpos htext]
    rfl
  rw [hback, Option.some_inj]
  constructor
  · intro h
    have hfilter := filterMap_cells_reread hlong
    rw [← filterMap_cells_trimSeparators, ← written_ofWritten (trimSeparators _), h,
      ← Table.lines_eq] at hfilter
    simpa using List.filter_eq_self.mp hfilter.symm
  · intro hrule
    have hself : trimSeparators t.written = t.written := by
      apply trimSeparators_eq_self
      · simp [hwritten]
      · rw [hwritten, List.getLast?_cons_cons, List.getLast?_cons_of_ne_nil hrows]
        rintro row hrow rfl
        exact hlast hrow
    rw [map_reread_written hrule, map_padded_eq_self hlong, hself, hwritten, ofWritten, ← hheader]

/-- A separator right under the one of the header comes back, and so does a row with a dash. -/
theorem read_render_dash_and_empty :
    let t : Table := ⟨some [['k'], ['v']], [.separator, .cells [['-'], []]]⟩
    let text := "| k | v |\n|---+---|\n|---+---|\n| - |   |\n".toList
    render? t = some text ∧ (read text).find? [] = some t := by
  intro t text
  have htext : render? t = some text := by decide +kernel
  have hiff := (read_render_eq_iff (t := t) rfl (by decide) (by decide) (by decide) (by decide)
    (by decide)).2 text htext
  exact ⟨htext, hiff.mpr (by decide)⟩

/-- A row of a lone dash comes back as a separator. -/
theorem read_render_row_of_dashes :
    ¬ ∀ (t : Table) (header : List Text), t.header = some header → header ≠ [] →
      (∀ cells ∈ t.dataRows, cells.length = header.length) →
      (∀ cells ∈ t.lines, ∀ c ∈ cells, IsCell c) → t.rows.getLast? ≠ some .separator →
      ∀ text, render? t = some text → (read text).find? [] = some t := by
  intro h
  have htext : render? ⟨some [['k']], [.cells [['x']], .cells [['-']], .cells [['y']]]⟩ =
      some "| k |\n|---|\n| x |\n| - |\n| y |\n".toList := by
    decide +kernel
  have hback := h _ [['k']] rfl (by decide) (by decide) (by decide) (by decide) _ htext
  have hread : (read "| k |\n|---|\n| x |\n| - |\n| y |\n".toList).find? [] =
      some ⟨some [['k']], [.cells [['x']], .separator, .cells [['y']]]⟩ := by
    decide +kernel
  rw [hread] at hback
  revert hback
  decide

/-- Without rows the separator under the header is the last one, and is trimmed. What was the header
is then the only row, unless it is taken for a rule itself. -/
theorem read_render_header {header : List Text} (hne : header ≠ [])
    (hcells : ∀ c ∈ header, IsCell c) {text : Text}
    (htext : render? ⟨some header, []⟩ = some text) : (read text).find? [] =
      some ⟨none, if header.all isRuleCell then [] else [.cells header]⟩ := by
  have hlines : (⟨some header, []⟩ : Table).lines = [header] := rfl
  have hwidth : (⟨some header, []⟩ : Table).width = header.length :=
    Table.width_eq (by simp [hlines]) (by simp [hlines])
  have hreread : reread header.length (.cells header) =
      if header.all isRuleCell then .separator else .cells header := by
    rw [reread, padCells_eq_self le_rfl]
  rw [read_render (by simpa [hlines] using hcells)
    (hwidth ▸ List.length_pos_of_ne_nil hne) htext, hwidth]
  have hwritten : (⟨some header, []⟩ : Table).written = [.cells header, .separator] := rfl
  rw [hwritten, List.map_cons, List.map_cons, hreread]
  split <;> rfl

end Rollup.Pipe
