import Rollup.Proofs.Csv.Lines

/-! # Documents that are written and read

A table with two cells or more in every row comes back with as many rows and cells, unless a cell
holds a line feed, in which case it cannot be read. A table that was read from a document comes back
as it was, unless it has a cell that is only kept by quotes which are not written, or a row that is
written as a blank line.
-/

namespace Rollup.Csv

/-! ## Written documents -/

/-- The table of the rows of a document. -/
def tableOf (hasHeader : Bool) (rows : List (List Text)) : Table :=
  if hasHeader then ⟨rows.head?, rows.tail.map .cells⟩ else ⟨none, rows.map .cells⟩

theorem read_eq (hasHeader : Bool) (document : Text) :
    read hasHeader document = (readLines 1 (Text.lines document)).map (tableOf hasHeader) := rfl

theorem filterMap_cells?_map (rows : List (List Text)) :
    (rows.map Row.cells).filterMap Row.cells? = rows := by
  rw [List.filterMap_map]
  exact List.filterMap_some

theorem lines_tableOf (hasHeader : Bool) (rows : List (List Text)) :
    (tableOf hasHeader rows).lines = rows := by
  unfold tableOf Table.lines Table.dataRows
  cases hasHeader with
  | false => simpa using filterMap_cells?_map rows
  | true =>
    cases rows with
    | nil => rfl
    | cons header rows => simpa using filterMap_cells?_map rows

/-- The document of some rows. -/
def renderRows (rows : List (List Text)) : Text :=
  rows.flatMap fun cells => renderLine cells ++ ['\n']

theorem render_eq_renderRows (t : Table) : render t = renderRows t.lines := rfl

section

variable {t : Table}

theorem lines_renderRows_append {rows : List (List Text)}
    (h : ∀ cells ∈ rows, ∀ c ∈ cells, '\n' ∉ c) (rest : Text) :
    Text.lines (renderRows rows ++ rest) = rows.map renderLine ++ Text.lines rest := by
  have hrows : renderRows rows = (rows.map renderLine).flatMap (· ++ ['\n']) := by
    rw [List.flatMap_map]
    rfl
  rw [hrows]
  apply Text.lines_flatMap_append
  intro line hline
  obtain ⟨cells, hcells, rfl⟩ := List.mem_map.mp hline
  refine ⟨?_, getLast?_renderLine_ne cells⟩
  intro hmem
  rcases mem_renderLine hmem with hmem | ⟨cell, hcell, hmem⟩
  · simp at hmem
  · exact h cells hcells cell hcell hmem

theorem lines_render (h : ∀ cells ∈ t.lines, ∀ c ∈ cells, '\n' ∉ c) :
    Text.lines (render t) = t.lines.map renderLine := by
  have hlines := lines_renderRows_append h []
  rwa [List.append_nil, Text.lines, List.append_nil] at hlines

theorem read_render (hasHeader : Bool) (hrows : ∀ cells ∈ t.lines, cells ≠ [])
    (hfeed : ∀ cells ∈ t.lines, ∀ c ∈ cells, '\n' ∉ c) :
    read hasHeader (render t) =
      .ok (tableOf hasHeader ((keptLines t.lines).map (·.map reread))) := by
  rw [read_eq, lines_render hfeed, readLines_renderLine hrows]
  rfl

/-- The first row with a line feed in a cell cannot be read. -/
theorem read_render_of_feed (hasHeader : Bool) {before after : List (List Text)} {cells : List Text}
    (hlines : t.lines = before ++ cells :: after) (hrows : ∀ cells ∈ t.lines, cells ≠ [])
    (hbefore : ∀ cells ∈ before, ∀ c ∈ cells, '\n' ∉ c) (hcells : ∃ c ∈ cells, '\n' ∈ c) :
    read hasHeader (render t) = .error (.unclosedField (before.length + 1)) := by
  obtain ⟨u, v, huv, hu, hodd⟩ := exists_renderLine_feed hcells
  obtain ⟨line, hline, hreturn⟩ := Text.exists_lines_append hu (v ++ '\n' :: renderRows after)
  have hrender :
      render t = renderRows before ++ (u ++ '\n' :: (v ++ '\n' :: renderRows after)) := by
    simp [render_eq_renderRows, renderRows, hlines, huv]
  have hcount : Odd (line.count '"') := by
    rcases hreturn with rfl | rfl
    · exact hodd
    · simpa using hodd
  have hbefore' : ∀ cells ∈ before, cells ≠ [] := by
    intro row hrow
    apply hrows
    rw [hlines]
    exact List.mem_append_left _ hrow
  rw [read_eq, hrender, lines_renderRows_append hbefore, hline,
    readLines_renderLine_append hbefore', readLines_of_unclosed hcount, Nat.add_comm]
  rfl

theorem keptLines_of_two {rows : List (List Text)} (h : ∀ cells ∈ rows, 2 ≤ cells.length) :
    keptLines rows = rows := by
  apply List.filter_eq_self.mpr
  intro cells hcells
  rw [Bool.not_eq_true', ← Bool.not_eq_true]
  intro hblank
  exact absurd (Text.isBlank_iff.mp hblank ',' (comma_mem_renderLine (h cells hcells))) (by decide)

theorem tableOf_rereadLines (t : Table) :
    tableOf t.header.isSome (t.lines.map (·.map reread)) =
      ⟨t.header.map (·.map reread), t.dataRows.map fun cells => .cells (cells.map reread)⟩ := by
  unfold tableOf Table.lines
  cases t.header <;> simp

/-- A document whose rows all have two cells or more is read back row by row and cell by cell,
unless a cell holds a line feed. The first row with such a cell cannot be read. -/
theorem read_written_rows (h : ∀ cells ∈ t.lines, 2 ≤ cells.length) :
    ((∀ cells ∈ t.lines, ∀ c ∈ cells, '\n' ∉ c) →
      read t.header.isSome (render t) =
        .ok ⟨t.header.map (·.map reread), t.dataRows.map fun cells => .cells (cells.map reread)⟩) ∧
      ∀ before cells after, t.lines = before ++ cells :: after →
        (∀ row ∈ before, ∀ c ∈ row, '\n' ∉ c) → (∃ c ∈ cells, '\n' ∈ c) →
          read t.header.isSome (render t) = .error (.unclosedField (before.length + 1)) := by
  have hne : ∀ cells ∈ t.lines, cells ≠ [] := by
    rintro cells hcells rfl
    exact absurd (h [] hcells) (by decide)
  constructor
  · intro hfeed
    rw [read_render _ hne hfeed, keptLines_of_two h, tableOf_rereadLines]
  · intro before cells after hlines hbefore hcells
    exact read_render_of_feed _ hlines hne hbefore hcells

theorem read_written_rows_quotes_and_returns :
    let t : Table := ⟨some ["a".toList, "".toList],
      [.separator, .cells ["x\r".toList, "y,\"z\"".toList], .separator,
        .cells ["=1".toList, " ".toList, "\r".toList]]⟩
    (∀ cells ∈ t.lines, 2 ≤ cells.length) ∧ read t.header.isSome (render t) =
      .ok ⟨some ["a".toList, "".toList], [.cells ["x\r".toList, "y,\"z\"".toList],
        .cells ["'=1".toList, "".toList, "\r".toList]]⟩ := by
  intro t
  have htwo : ∀ cells ∈ t.lines, 2 ≤ cells.length := by decide
  exact ⟨htwo, ((read_written_rows htwo).1 (by decide)).trans (by decide)⟩

/-- A line feed in a cell is quoted when it is written, and ends the line when it is read. -/
theorem read_written_rows_line_feed :
    let t : Table := ⟨none, [.cells ["a\nb".toList, "c".toList]]⟩
    (∀ cells ∈ t.lines, 2 ≤ cells.length) ∧ render t = "\"a\nb\",c\n".toList ∧
      read t.header.isSome (render t) = .error (.unclosedField 1) := by
  intro t
  exact ⟨by decide, by decide, by decide⟩

end

/-! ## Documents that were read -/

section

variable {hasHeader : Bool} {document : Text} {t : Table}

/-- The rows that are read have a cell at least, and no line feed in it. -/
theorem exists_of_read (h : read hasHeader document = .ok t) :
    ∃ rows, t = tableOf hasHeader rows ∧ ∀ cells ∈ rows, cells ≠ [] ∧ ∀ c ∈ cells, '\n' ∉ c := by
  rw [read_eq] at h
  obtain ⟨rows, hrows, rfl⟩ := exists_of_map_eq_ok h
  refine ⟨rows, rfl, ?_⟩
  intro cells hcells
  obtain ⟨line, hline, hread⟩ := exists_of_mem_readLines hrows hcells
  obtain ⟨hne, hmem⟩ := of_readLine? hread
  refine ⟨hne, ?_⟩
  intro c hc hfeed
  exact Text.newline_not_mem_lines hline (hmem c hc '\n' hfeed)

theorem reread_eq_self_iff {cell : Text} (h : needsGuard cell = false) :
    reread cell = cell ↔ Text.trim cell = cell ∨ needsQuotes cell := by
  have hguarded : guarded cell = cell := by simp [guarded, h]
  unfold reread
  rw [hguarded]
  split
  case isTrue hquotes => simp [hquotes]
  case isFalse hquotes => simp [hquotes]

theorem map_eq_self_iff {α : Type} {f : α → α} {l : List α} : l.map f = l ↔ ∀ a ∈ l, f a = a := by
  have hid := List.map_inj_left (l := l) (f := f) (g := id)
  rwa [List.map_id] at hid

/-- A row that comes back cell by cell is skipped only if it is a single empty cell. -/
theorem isBlank_renderLine_iff {cells : List Text} (hne : cells ≠ [])
    (hguard : ∀ c ∈ cells, needsGuard c = false) (hsame : ∀ c ∈ cells, reread c = c) :
    Text.isBlank (renderLine cells) ↔ cells = [[]] := by
  constructor
  · intro hblank
    match cells, hne with
    | [cell], _ =>
      have hguarded : guarded cell = cell := by simp [guarded, hguard cell]
      have hcell := hsame cell (by simp)
      rw [renderLine_singleton, renderCell, hguarded, encode] at hblank
      rw [reread, hguarded] at hcell
      split at hblank
      case isTrue hquotes => exact absurd (Text.isBlank_iff.mp hblank '"' (by simp)) (by decide)
      case isFalse hquotes =>
        rw [if_neg hquotes, Text.trim_of_isBlank hblank] at hcell
        rw [← hcell]
    | cell :: next :: later, _ =>
      have hcomma : ',' ∈ renderLine (cell :: next :: later) := comma_mem_renderLine (by simp)
      exact absurd (Text.isBlank_iff.mp hblank ',' hcomma) (by decide)
  · rintro rfl
    rfl

theorem map_reread_keptLines_iff {rows : List (List Text)} (hne : ∀ cells ∈ rows, cells ≠ [])
    (hguard : ∀ cells ∈ rows, ∀ c ∈ cells, needsGuard c = false) :
    (keptLines rows).map (·.map reread) = rows ↔
      ∀ cells ∈ rows, cells ≠ [[]] ∧ ∀ c ∈ cells, reread c = c := by
  constructor
  · intro hsame
    have hlength := congrArg List.length hsame
    rw [List.length_map, keptLines, List.length_filter_eq_length_iff] at hlength
    have hkept : keptLines rows = rows := List.filter_eq_self.mpr hlength
    rw [hkept] at hsame
    intro cells hcells
    refine ⟨?_, map_eq_self_iff.mp (map_eq_self_iff.mp hsame cells hcells)⟩
    rintro rfl
    exact absurd (hlength _ hcells) (by decide)
  · intro hsame
    have hkept : keptLines rows = rows := by
      apply List.filter_eq_self.mpr
      intro cells hcells
      obtain ⟨hempty, hcells'⟩ := hsame cells hcells
      rw [Bool.not_eq_true', ← Bool.not_eq_true]
      intro hblank
      have hiff := isBlank_renderLine_iff (hne cells hcells) (hguard cells hcells) hcells'
      exact hempty (hiff.mp hblank)
    rw [hkept]
    apply map_eq_self_iff.mpr
    intro cells hcells
    exact map_eq_self_iff.mpr (hsame cells hcells).2

/-- A document that was read can be written and read again, when no cell is guarded. It gives the
same table if and only if every cell is trimmed or stands in quotes, and no row is a single empty
cell. -/
theorem read_render_of_read (h : read hasHeader document = .ok t)
    (hguard : ∀ cells ∈ t.lines, ∀ c ∈ cells, needsGuard c = false) :
    (∃ again, read hasHeader (render t) = .ok again) ∧
      (read hasHeader (render t) = .ok t ↔
        ∀ cells ∈ t.lines, cells ≠ [[]] ∧ ∀ c ∈ cells, Text.trim c = c ∨ needsQuotes c) := by
  obtain ⟨rows, rfl, hrows⟩ := exists_of_read h
  have hagain := read_render (t := tableOf hasHeader rows) hasHeader
  rw [lines_tableOf] at hguard hagain ⊢
  have hne : ∀ cells ∈ rows, cells ≠ [] := fun cells hcells => (hrows cells hcells).1
  replace hagain := hagain hne fun cells hcells => (hrows cells hcells).2
  refine ⟨⟨_, hagain⟩, ?_⟩
  have hcells : (∀ cells ∈ rows, cells ≠ [[]] ∧ ∀ c ∈ cells, Text.trim c = c ∨ needsQuotes c) ↔
      ∀ cells ∈ rows, cells ≠ [[]] ∧ ∀ c ∈ cells, reread c = c := by
    refine forall₂_congr fun cells hcells => and_congr_right fun _ => forall₂_congr fun c hc => ?_
    exact (reread_eq_self_iff (hguard cells hcells c hc)).symm
  rw [hagain, hcells, ← map_reread_keptLines_iff hne hguard]
  constructor
  · intro hsame
    have hlines := congrArg Table.lines (Except.ok.inj hsame)
    rwa [lines_tableOf, lines_tableOf] at hlines
  · intro hsame
    rw [hsame]

theorem read_render_of_read_trimmed_and_quoted :
    let document : Text := "Name , \"a,b\"\r\n \t\n-1,\" \r\"\n".toList
    let t : Table := ⟨some ["Name".toList, " a,b".toList], [.cells ["-1".toList, " \r".toList]]⟩
    read true document = .ok t ∧ (∀ cells ∈ t.lines, ∀ c ∈ cells, needsGuard c = false) ∧
      read true (render t) = .ok t := by
  intro document t
  have hread : read true document = .ok t := by decide
  have hguard : ∀ cells ∈ t.lines, ∀ c ∈ cells, needsGuard c = false := by decide
  exact ⟨hread, hguard, (read_render_of_read hread hguard).2.mpr (by decide)⟩

/-- Quotes keep the blanks around a text when it is read, but are not written for them. -/
theorem read_render_of_read_outer_blanks :
    let document : Text := "\"  keep me  \",x\n".toList
    let t : Table := ⟨none, [.cells ["  keep me  ".toList, "x".toList]]⟩
    let again : Table := ⟨none, [.cells ["keep me".toList, "x".toList]]⟩
    read false document = .ok t ∧ (∀ cells ∈ t.lines, ∀ c ∈ cells, needsGuard c = false) ∧
      read false (render t) = .ok again ∧ again ≠ t := by
  intro document t again
  exact ⟨by decide, by decide, by decide, by decide⟩

end

end Rollup.Csv
