import Rollup.Proofs.Given
import Rollup.Proofs.Table.Shape
import Rollup.Proofs.Text.Pieces
import Rollup.Proofs.Text.Trim
import Rollup.Table.Pipe

/-! # Lines of pipe tables

A table is rendered unless one of its cells is too long, and what a rendered line is read as. A rule
is a separator. A line of cells gives its cells back, padded to the width of the table, unless they
are all dashes and colons, which makes it a rule.
-/

namespace Rollup.Pipe

/-- A text that a line of cells can hold. -/
structure IsCell (cell : Text) : Prop where
  trimmed : Text.trim cell = cell
  no_pipe : '|' ∉ cell
  no_newline : '\n' ∉ cell

theorem isCell_nil : IsCell [] := ⟨rfl, by simp, by simp⟩

theorem isCell_getD {cells : List Text} (h : ∀ c ∈ cells, IsCell c) (i : ℕ) :
    IsCell (cells.getD i []) := by
  rcases Nat.lt_or_ge i cells.length with hi | hi
  · simpa [hi] using h _ (List.getElem_mem hi)
  · simpa [hi] using isCell_nil

/-! ## Cells on a line -/

/-- The text of an aligned cell, for any width. -/
def alignedCell (alignNumbers : Bool) (width : ℕ) (cell : Text) : Text :=
  if alignNumbers && (Number.read? cell).isSome then Text.padLeft width cell
  else Text.padRight width cell

theorem givenIf_alignCell? (alignNumbers : Bool) (width : ℕ) (cell : Text) :
    GivenIf (width ≤ Text.formatLimit) (alignCell? alignNumbers width cell)
      (alignedCell alignNumbers width cell) := by
  unfold alignCell? alignedCell
  split
  · exact givenIf_ite _ _
  · exact givenIf_ite _ _

theorem alignedCell_eq (alignNumbers : Bool) (width : ℕ) (cell : Text) : ∃ m n,
    alignedCell alignNumbers width cell =
      List.replicate m ' ' ++ cell ++ List.replicate n ' ' := by
  unfold alignedCell
  split
  · exact ⟨_, 0, (List.append_nil _).symm⟩
  · exact ⟨0, _, rfl⟩

theorem mem_alignedCell {alignNumbers : Bool} {width : ℕ} {cell : Text} {c : Char}
    (h : c ∈ alignedCell alignNumbers width cell) : c = ' ' ∨ c ∈ cell := by
  unfold alignedCell Text.padLeft Text.padRight at h
  split at h
  · rcases List.mem_append.mp h with h | h
    · exact .inl (List.eq_of_mem_replicate h)
    · exact .inr h
  · rcases List.mem_append.mp h with h | h
    · exact .inr h
    · exact .inl (List.eq_of_mem_replicate h)

/-- What stands between two pipes: a cell, aligned, with a blank on both sides. -/
def slot (alignNumbers : Bool) (width : ℕ) (cell : Text) : Text :=
  ' ' :: alignedCell alignNumbers width cell ++ [' ']

theorem trim_slot {alignNumbers : Bool} {width : ℕ} {cell : Text} (h : IsCell cell) :
    Text.trim (slot alignNumbers width cell) = cell := by
  obtain ⟨m, n, heq⟩ := alignedCell_eq alignNumbers width cell
  have hslot : slot alignNumbers width cell =
      [' '] ++ (List.replicate m ' ' ++ (cell ++ (List.replicate n ' ' ++ [' ']))) := by
    simp [slot, heq]
  rw [hslot, Text.trim_append_left (by decide), Text.trim_append_left (Text.isBlank_replicate m),
    ← List.append_assoc, Text.trim_append_right (by decide),
    Text.trim_append_right (Text.isBlank_replicate n), h.trimmed]

theorem mem_slot {alignNumbers : Bool} {width : ℕ} {cell : Text} {c : Char}
    (h : c ∈ slot alignNumbers width cell) : c = ' ' ∨ c ∈ cell := by
  simp only [slot, List.cons_append, List.mem_cons, List.mem_append, List.mem_nil_iff] at h
  rcases h with h | h | h | h
  · exact .inl h
  · exact mem_alignedCell h
  · exact .inl h
  · cases h

/-! ## Lines without their endings -/

/-- A line of texts between pipes. -/
def barLine (between : Char) (texts : List Text) : Text :=
  '|' :: Text.joinWith [between] texts ++ ['|']

def ruleLine (widths : List ℕ) : Text :=
  barLine '+' (widths.map fun w => List.replicate (w + 2) '-')

def cellsLine (alignNumbers : Bool) (widths : List ℕ) (cells : List Text) : Text :=
  barLine '|' (widths.zipIdx.map fun (w, i) => slot alignNumbers w (cells.getD i []))

theorem renderRule_eq (widths : List ℕ) : renderRule widths = ruleLine widths ++ ['\n'] := by
  simp [renderRule, ruleLine, barLine]

theorem joinWith_blanks {ts : List Text} (h : ts ≠ []) :
    ' ' :: Text.joinWith " | ".toList ts ++ [' '] =
      Text.joinWith ['|'] (ts.map fun t => ' ' :: t ++ [' ']) := by
  unfold Text.joinWith
  induction ts with
  | nil => exact absurd rfl h
  | cons t ts ih =>
    cases ts with
    | nil => simp
    | cons u ts =>
      have hnext := ih (List.cons_ne_nil u ts)
      rw [List.map_cons] at hnext
      rw [List.map_cons, List.map_cons, List.intercalate_cons_cons, List.intercalate_cons_cons,
        ← hnext]
      simp

theorem cellsLine_eq_joinWith {alignNumbers : Bool} {widths : List ℕ} {cells : List Text}
    (h : widths ≠ []) :
    "| ".toList ++ Text.joinWith " | ".toList
        (widths.zipIdx.map fun (w, i) => alignedCell alignNumbers w (cells.getD i [])) ++
      " |\n".toList = cellsLine alignNumbers widths cells ++ ['\n'] := by
  have hne : widths.zipIdx.map (fun x => alignedCell alignNumbers x.1 (cells.getD x.2 [])) ≠ [] := by
    simpa using h
  have hjoin := joinWith_blanks hne
  rw [List.map_map] at hjoin
  unfold cellsLine barLine slot
  simp only [Function.comp_def] at hjoin
  rw [← hjoin]
  simp

theorem givenIf_renderCells? {alignNumbers : Bool} {widths : List ℕ} {cells : List Text}
    (h : widths ≠ []) :
    GivenIf (∀ w ∈ widths, w ≤ Text.formatLimit) (renderCells? alignNumbers widths cells)
      (cellsLine alignNumbers widths cells ++ ['\n']) := by
  have hshown : GivenIf (∀ x ∈ widths.zipIdx, x.1 ≤ Text.formatLimit)
      (widths.zipIdx.mapM fun (w, i) => alignCell? alignNumbers w (cells.getD i []))
      (widths.zipIdx.map fun (w, i) => alignedCell alignNumbers w (cells.getD i [])) :=
    givenIf_mapM fun x _ => givenIf_alignCell? alignNumbers x.1 _
  have hwidths : (∀ x ∈ widths.zipIdx, x.1 ≤ Text.formatLimit) ↔
      ∀ w ∈ widths, w ≤ Text.formatLimit := by
    have hmap := List.forall_mem_map (f := Prod.fst) (l := widths.zipIdx)
      (P := fun w => w ≤ Text.formatLimit)
    rw [List.zipIdx_map_fst] at hmap
    exact hmap.symm
  rw [← cellsLine_eq_joinWith h]
  exact (hshown.bind_pure _).congr hwidths

theorem getLast?_barLine (between : Char) (texts : List Text) :
    (barLine between texts).getLast? = some '|' := by
  rw [barLine, List.getLast?_concat]

theorem trim_barLine (between : Char) (texts : List Text) :
    Text.trim (barLine between texts) = barLine between texts := by
  apply Text.trim_eq_self
  · rintro c ⟨⟩
    decide
  · intro c hc
    rw [getLast?_barLine] at hc
    cases hc
    decide

theorem isTableLine_barLine (between : Char) (texts : List Text) :
    isTableLine (barLine between texts) = true := by
  unfold isTableLine Text.trimStart barLine
  rfl

theorem splitCells_barLine {texts : List Text} (h : ∀ t ∈ texts, '|' ∉ t) (hne : texts ≠ []) :
    splitCells (barLine '|' texts) = texts.map Text.trim := by
  have hafter : Text.after? ['|'] (barLine '|' texts) =
      some (Text.joinWith ['|'] texts ++ ['|']) := by
    simp [barLine, Text.after?]
  have hbefore : Text.before? '|' (Text.joinWith ['|'] texts ++ ['|']) =
      some (Text.joinWith ['|'] texts) := by
    simp [Text.before?]
  unfold splitCells
  simp only [trim_barLine, hafter, hbefore, Option.getD_some, Text.split_joinWith h hne]

/-! ## Reading a rendered line -/

theorem readRow_ruleLine {widths : List ℕ} (h : widths ≠ []) :
    readRow (ruleLine widths) = .separator := by
  have hrule : isRule (ruleLine widths) = true := by
    obtain ⟨w, ws, rfl⟩ := List.exists_cons_of_ne_nil h
    unfold isRule ruleLine
    rw [trim_barLine]
    cases ws <;> simp [barLine, Text.joinWith, Text.after?, List.replicate_succ]
  rw [readRow, if_pos hrule]

/-- What a row becomes when it is written and read. -/
def reread (width : ℕ) : Row → Row
  | .separator => .separator
  | .cells cs =>
    if (padCells width cs).all isRuleCell then .separator else .cells (padCells width cs)

section

variable {t : Table} {cells : List Text}

theorem zipIdx_columnWidths (t : Table) :
    (columnWidths t).zipIdx = (List.range t.width).map fun i => (columnWidth t.lines i, i) := by
  unfold columnWidths
  apply List.ext_getElem
  · simp
  · intro i _ _
    simp

theorem columnWidths_ne_nil (h : 0 < t.width) : columnWidths t ≠ [] := by
  unfold columnWidths
  simpa using h.ne'

/-- The slots of a line, one for every column of the table. -/
theorem cellsLine_eq (alignNumbers : Bool) (t : Table) (cells : List Text) :
    cellsLine alignNumbers (columnWidths t) cells =
      barLine '|' ((List.range t.width).map fun i =>
        slot alignNumbers (columnWidth t.lines i) (cells.getD i [])) := by
  unfold cellsLine
  rw [zipIdx_columnWidths, List.map_map]
  rfl

theorem readRow_cellsLine {alignNumbers : Bool} (hcells : ∀ c ∈ cells, IsCell c)
    (hwidth : 0 < t.width) (hlen : cells.length ≤ t.width) :
    readRow (cellsLine alignNumbers (columnWidths t) cells) = reread t.width (.cells cells) := by
  have hsplit : splitCells (cellsLine alignNumbers (columnWidths t) cells) =
      padCells t.width cells := by
    rw [cellsLine_eq, splitCells_barLine, List.map_map, ← map_getD_range hlen]
    · apply List.map_congr_left
      intro i _
      exact trim_slot (isCell_getD hcells i)
    · intro text htext hpipe
      obtain ⟨i, -, rfl⟩ := List.mem_map.mp htext
      rcases mem_slot hpipe with h | h
      · cases h
      · exact (isCell_getD hcells i).no_pipe h
    · simpa using hwidth.ne'
  -- a blank follows the first pipe, so that only the cells can make the line a rule
  have hafter : Text.after? ['|', '-']
      (Text.trim (cellsLine alignNumbers (columnWidths t) cells)) = none := by
    obtain ⟨n, hn⟩ := Nat.exists_eq_succ_of_ne_zero hwidth.ne'
    rw [cellsLine_eq, trim_barLine, hn, List.range_succ_eq_map]
    cases n <;> simp [barLine, Text.joinWith, Text.after?, slot, List.range_succ_eq_map]
  unfold readRow isRule reread
  rw [hafter, hsplit]
  rfl

end

/-! ## The lines of a rendered table -/

def rowLine (widths : List ℕ) : Row → Text
  | .separator => ruleLine widths
  | .cells cells => cellsLine true widths cells

/-- The header and the rule under it, or nothing. -/
def headerLines (widths : List ℕ) : Option (List Text) → List Text
  | none => []
  | some cells => [cellsLine false widths cells, ruleLine widths]

/-- The lines of a rendered table, without their endings. -/
def writtenLines (t : Table) : List Text :=
  headerLines (columnWidths t) t.header ++ t.rows.map (rowLine (columnWidths t))

section

variable {t : Table}

/-- No cell is longer than a column can be wide. -/
def Fits (t : Table) : Prop := ∀ cells ∈ t.lines, ∀ cell ∈ cells, cell.length ≤ Text.formatLimit

instance (t : Table) : Decidable (Fits t) :=
  inferInstanceAs (Decidable (∀ cells ∈ t.lines, ∀ cell ∈ cells, cell.length ≤ Text.formatLimit))

theorem columnWidth_le_iff {ls : List (List Text)} {i n : ℕ} (hn : 1 ≤ n) :
    columnWidth ls i ≤ n ↔ ∀ cells ∈ ls, (cells.getD i []).length ≤ n := by
  have hne : 1 :: ls.map (fun cells => (cells.getD i []).length) ≠ [] := List.cons_ne_nil _ _
  have hmax := List.max_le_iff hne (x := n)
  rw [List.forall_mem_cons, List.forall_mem_map, and_iff_right hn] at hmax
  exact hmax

theorem fits_iff : Fits t ↔ ∀ w ∈ columnWidths t, w ≤ Text.formatLimit := by
  have hone : 1 ≤ Text.formatLimit := by decide
  unfold columnWidths
  rw [List.forall_mem_map]
  simp only [columnWidth_le_iff hone]
  constructor
  · intro h i _ cells hcells
    rcases Nat.lt_or_ge i cells.length with hi | hi
    · simpa [hi] using h cells hcells _ (List.getElem_mem hi)
    · simp [hi]
  · intro h cells hcells cell hcell
    obtain ⟨i, hi, rfl⟩ := List.getElem_of_mem hcell
    have hrange : i ∈ List.range t.width :=
      List.mem_range.mpr (hi.trans_le (Table.length_le_width hcells))
    simpa [hi] using h i hrange cells hcells

theorem givenIf_renderRow? (h : 0 < t.width) (row : Row) :
    GivenIf (row.cells?.isSome → Fits t) (renderRow? (columnWidths t) row)
      (rowLine (columnWidths t) row ++ ['\n']) := by
  cases row with
  | separator =>
    rw [renderRow?, rowLine, ← renderRule_eq]
    exact (givenIf_some _).congr (by simp [Row.cells?])
  | cells cells =>
    exact (givenIf_renderCells? (columnWidths_ne_nil h)).congr (by simp [Row.cells?, fits_iff])

theorem givenIf_renderHeader? (h : 0 < t.width) :
    GivenIf (t.header.isSome → Fits t) (renderHeader? (columnWidths t) t.header)
      ((headerLines (columnWidths t) t.header).flatMap (· ++ ['\n'])) := by
  cases t.header with
  | none => exact (givenIf_some _).congr (by simp)
  | some cells =>
    have hcells : GivenIf _ (renderCells? false (columnWidths t) cells) _ :=
      givenIf_renderCells? (columnWidths_ne_nil h)
    have hheader := hcells.bind_pure (· ++ renderRule (columnWidths t))
    rw [← fits_iff] at hheader
    have htext : (headerLines (columnWidths t) (some cells)).flatMap (· ++ ['\n']) =
        cellsLine false (columnWidths t) cells ++ ['\n'] ++ renderRule (columnWidths t) := by
      simp [headerLines, renderRule_eq]
    rw [htext]
    exact hheader.congr (by simp)

/-- Rules are formatted for any width, so it is the cells that have to fit. -/
theorem givenIf_render? (h : 0 < t.width) :
    GivenIf (Fits t) (render? t) ((writtenLines t).flatMap (· ++ ['\n'])) := by
  have hrows : GivenIf (∀ row ∈ t.rows, row.cells?.isSome → Fits t)
      (t.rows.mapM (renderRow? (columnWidths t)))
      (t.rows.map fun row => rowLine (columnWidths t) row ++ ['\n']) :=
    givenIf_mapM fun row _ => givenIf_renderRow? h row
  have hrender := (givenIf_renderHeader? h).bind (f := fun header => do
    return header ++ (← t.rows.mapM (renderRow? (columnWidths t))).flatten)
    (fun _ => hrows.bind_pure fun rows => _ ++ rows.flatten)
  have hcells : (t.header.isSome → Fits t) ∧ (∀ row ∈ t.rows, row.cells?.isSome → Fits t) ↔
      Fits t := by
    refine ⟨fun ⟨hheader, hrow⟩ => ?_, fun hfits => ⟨fun _ => hfits, fun _ _ _ => hfits⟩⟩
    obtain ⟨cells, hmem⟩ := List.exists_mem_of_ne_nil _ (Table.lines_ne_nil h)
    rcases List.mem_append.mp hmem with hmem | hmem
    · exact hheader (Option.isSome_iff_exists.mpr ⟨cells, Option.mem_toList.mp hmem⟩)
    · exact hrow _ (Table.mem_dataRows.mp hmem) rfl
  rw [writtenLines, List.flatMap_append, List.flatMap_map, List.flatMap_def (f := fun row => _ ++ _)]
  exact hrender.congr hcells

theorem mem_writtenLines {line : Text} (h : line ∈ writtenLines t) :
    line = ruleLine (columnWidths t) ∨
      ∃ alignNumbers, ∃ cells ∈ t.lines, line = cellsLine alignNumbers (columnWidths t) cells := by
  unfold writtenLines at h
  rcases List.mem_append.mp h with h | h
  · cases hheader : t.header with
    | none => simp [hheader, headerLines] at h
    | some header =>
      simp only [hheader, headerLines, List.mem_cons, List.not_mem_nil, or_false] at h
      rcases h with rfl | rfl
      · exact .inr ⟨false, header, by simp [Table.lines, hheader], rfl⟩
      · exact .inl rfl
  · obtain ⟨row, hrow, rfl⟩ := List.mem_map.mp h
    cases row with
    | separator => exact .inl rfl
    | cells cells =>
      have hcells : cells ∈ t.dataRows := Table.mem_dataRows.mpr hrow
      exact .inr ⟨true, cells, List.mem_append_right _ hcells, rfl⟩

theorem isTableLine_of_mem {line : Text} (h : line ∈ writtenLines t) : isTableLine line := by
  rcases mem_writtenLines h with rfl | ⟨alignNumbers, cells, -, rfl⟩
  · rw [ruleLine, isTableLine_barLine]
  · rw [cellsLine, isTableLine_barLine]

theorem newline_not_mem_barLine {between : Char} {texts : List Text} (hbetween : '\n' ≠ between)
    (h : ∀ text ∈ texts, '\n' ∉ text) : '\n' ∉ barLine between texts := by
  have hjoin : '\n' ∉ Text.joinWith [between] texts := by
    intro hmem
    rcases Text.mem_joinWith hmem with heq | ⟨text, htext, hmem⟩
    · exact hbetween heq
    · exact h text htext hmem
  simpa [barLine] using hjoin

theorem newline_not_mem_writtenLines (hcells : ∀ cells ∈ t.lines, ∀ c ∈ cells, '\n' ∉ c)
    {line : Text} (h : line ∈ writtenLines t) : '\n' ∉ line := by
  rcases mem_writtenLines h with rfl | ⟨alignNumbers, cells, hmem, rfl⟩
  · apply newline_not_mem_barLine (by decide)
    intro text htext hnewline
    obtain ⟨w, -, rfl⟩ := List.mem_map.mp htext
    cases List.eq_of_mem_replicate hnewline
  · rw [cellsLine_eq]
    apply newline_not_mem_barLine (by decide)
    intro text htext hnewline
    obtain ⟨i, -, rfl⟩ := List.mem_map.mp htext
    rcases mem_slot hnewline with heq | hmem'
    · cases heq
    · rcases Nat.lt_or_ge i cells.length with hi | hi
      · exact hcells cells hmem _ (List.getElem_mem hi) (by simpa [hi] using hmem')
      · simp [hi] at hmem'

theorem lines_writtenLines (hcells : ∀ cells ∈ t.lines, ∀ c ∈ cells, '\n' ∉ c) :
    Text.lines ((writtenLines t).flatMap (· ++ ['\n'])) = writtenLines t := by
  apply Text.lines_flatMap
  intro line hline
  refine ⟨newline_not_mem_writtenLines hcells hline, ?_⟩
  rcases mem_writtenLines hline with rfl | ⟨alignNumbers, cells, -, rfl⟩
  · rw [ruleLine, getLast?_barLine]
    decide
  · rw [cellsLine, getLast?_barLine]
    decide

theorem map_readRow_writtenLines (hcells : ∀ cells ∈ t.lines, ∀ c ∈ cells, IsCell c)
    (hwidth : 0 < t.width) : (writtenLines t).map readRow = t.written.map (reread t.width) := by
  have hcellsLine : ∀ alignNumbers, ∀ cells ∈ t.lines,
      readRow (cellsLine alignNumbers (columnWidths t) cells) = reread t.width (.cells cells) := by
    intro alignNumbers cells hmem
    exact readRow_cellsLine (hcells cells hmem) hwidth (Table.length_le_width hmem)
  have hruleLine : readRow (ruleLine (columnWidths t)) = reread t.width .separator :=
    readRow_ruleLine (columnWidths_ne_nil hwidth)
  have hrows : (t.rows.map (rowLine (columnWidths t))).map readRow =
      t.rows.map (reread t.width) := by
    rw [List.map_map]
    apply List.map_congr_left
    intro row hrow
    cases row with
    | separator => rw [Function.comp_apply, rowLine, hruleLine]
    | cells cells =>
      have hmem : cells ∈ t.lines := List.mem_append_right _ (Table.mem_dataRows.mpr hrow)
      rw [Function.comp_apply, rowLine, hcellsLine true cells hmem]
  unfold writtenLines Table.written
  rw [List.map_append, List.map_append, hrows]
  congr 1
  cases hheader : t.header with
  | none => rfl
  | some header =>
    have hmem : header ∈ t.lines := by simp [Table.lines, hheader]
    simp [headerLines, hcellsLine false header hmem, hruleLine]

end

end Rollup.Pipe
