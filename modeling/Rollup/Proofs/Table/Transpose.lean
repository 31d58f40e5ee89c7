import Rollup.Proofs.Table.Shape
import Rollup.Proofs.Text.Trim
import Rollup.Script.Evaluate
import Rollup.Summary.Basic

/-! # Transposing twice

A separator becomes an empty cell in every row, and a blank column becomes a separator. Transposing
again tells both from data by emptiness alone, which works when no data row is blank and the blank
columns hold nothing.
-/

namespace Rollup

/-! ## One column as a row -/

/-- What a row shows in the column with an index that counts from 0. A separator shows nothing. -/
def Row.shown (i : ℕ) : Row → Text
  | .separator => []
  | .cells cs => cs.getD i []

theorem Row.shown_cells (i : ℕ) (cs : List Text) : (Row.cells cs).shown i = cs.getD i [] := rfl

namespace Table

/-- Every data row is blank in the column with this index. -/
def BlankColumn (t : Table) (i : ℕ) : Prop := ∀ cs ∈ t.dataRows, Text.isBlank (cs.getD i [])

instance (t : Table) (i : ℕ) : Decidable (t.BlankColumn i) :=
  inferInstanceAs (Decidable (∀ cs ∈ t.dataRows, Text.isBlank (cs.getD i [])))

/-- The column with an index that counts from 0, as a row. -/
def column (t : Table) (i : ℕ) : Row :=
  if t.BlankColumn i then .separator
  else .cells ((t.header.map (·.getD i [])).toList ++ t.rows.map (Row.shown i))

/-- All columns as rows. -/
def flipped (t : Table) : Table := ⟨none, (List.range t.width).map t.column⟩

theorem map_cell_placeRows (block i : ℕ) (rows : List Row) :
    (placeRows block rows).map (fun r => (r.map (·.cell (i + 1))).getD []) =
      rows.map (Row.shown i) := by
  induction rows generalizing block with
  | nil => rfl
  | cons row rows ih =>
    cases row with
    | separator =>
      simp only [placeRows, List.map_cons, ih]
      rfl
    | cells cs =>
      simp only [placeRows, List.map_cons, ih]
      rfl

theorem map_cells_bodyRows (t : Table) : t.bodyRows.map BodyRow.cells = t.dataRows := by
  have hplaced : ∀ block rows, ((placeRows block rows).filterMap id).map BodyRow.cells =
      rows.filterMap Row.cells? := by
    intro block rows
    induction rows generalizing block with
    | nil => rfl
    | cons row rows ih =>
      cases row with
      | separator => exact ih (block + 1)
      | cells cs => exact congrArg (cs :: ·) (ih block)
  exact hplaced 0 t.rows

theorem keptRows_none (t : Table) : t.keptRows none = t.placedRows := by
  unfold keptRows
  apply List.filter_eq_self.mpr
  intro r _
  cases r <;> rfl

theorem columnAsRow_eq (t : Table) (i : ℕ) :
    columnAsRow t.header (t.keptRows none) (i + 1) = t.column i := by
  have hblank : (t.bodyRows.all fun r => Text.isBlank (r.cell (i + 1))) ↔ t.BlankColumn i := by
    unfold BlankColumn
    simp only [← map_cells_bodyRows, List.all_eq_true, List.forall_mem_map]
    rfl
  unfold columnAsRow column
  simp only [keptRows_none, placedRows, map_cell_placeRows]
  split_ifs with h h' h'
  · rfl
  · exact absurd (hblank.mp h) h'
  · exact absurd (hblank.mpr h') h
  · rfl

theorem transpose_eq_flipped (t : Table) :
    t.transpose (List.range' 1 t.width) none = t.flipped := by
  unfold transpose flipped
  rw [List.range'_eq_map_range, List.map_map]
  congr 1
  apply List.map_congr_left
  intro i _
  rw [← columnAsRow_eq, Nat.add_comm]
  rfl

end Table

/-- No list of columns and no filter, or blank ones. -/
structure TransposeRequest.IsDefault (r : TransposeRequest) : Prop where
  columns : ∀ list ∈ r.columns, Text.isBlank list
  rowFilter : ∀ e ∈ r.rowFilter, Text.isBlank e

namespace Table

theorem transposed_of_isDefault (E : Filter.Engine) (t : Table) {r : TransposeRequest} (h : r.IsDefault) :
    t.transposed E r = .ok t.flipped := by
  have hcolumns : t.chosenColumns r.columns = .ok (List.range' 1 t.width) := by
    unfold chosenColumns
    cases hc : r.columns with
    | none => rfl
    | some list => simp [h.columns list hc]
  have hfilter : t.columns.optionalFilter E r.rowFilter = .ok none := by
    unfold Columns.optionalFilter
    cases hf : r.rowFilter with
    | none => rfl
    | some e => simp [Text.trim_of_isBlank (h.rowFilter e hf)]
  unfold transposed
  rw [hcolumns, hfilter, ← transpose_eq_flipped]
  rfl

/-! ## Flipping twice -/

/-- What is needed to get a table back: rows of one width, of which none is blank, and no white
space in blank columns. -/
structure Restorable (width : ℕ) (t : Table) : Prop where
  header_eq : t.header = none
  nonempty : t.dataRows ≠ []
  length_eq : ∀ cs ∈ t.dataRows, cs.length = width
  not_blank : ∀ cs ∈ t.dataRows, ∃ c ∈ cs, ¬ Text.isBlank c
  empty_of_blank : ∀ i < width, t.BlankColumn i → ∀ cs ∈ t.dataRows, cs.getD i [] = []

namespace Restorable

variable {t : Table} {width : ℕ}

theorem width_eq (h : t.Restorable width) : t.width = width := by
  have hlines : t.lines = t.dataRows := by simp [lines, h.header_eq]
  apply Table.width_eq
  · rw [hlines]
    exact h.nonempty
  · rw [hlines]
    exact h.length_eq

theorem exists_column (h : t.Restorable width) {cs : List Text} (hcs : cs ∈ t.dataRows) :
    ∃ i < width, ¬ Text.isBlank (cs.getD i []) := by
  obtain ⟨c, hc, hblank⟩ := h.not_blank cs hcs
  obtain ⟨i, hi, rfl⟩ := List.getElem_of_mem hc
  refine ⟨i, ?_, ?_⟩
  · rwa [← h.length_eq cs hcs]
  · simpa [hi] using hblank

theorem column_eq (h : t.Restorable width) {i : ℕ} (hi : ¬ t.BlankColumn i) :
    t.column i = .cells (t.rows.map (Row.shown i)) := by
  unfold column
  rw [if_neg hi, h.header_eq]
  rfl

/-- The columns that are not blank are the data rows of the flipped table. -/
theorem mem_dataRows_flipped (h : t.Restorable width) {l : List Text} :
    l ∈ t.flipped.dataRows ↔ ∃ i < width, ¬ t.BlankColumn i ∧ l = t.rows.map (Row.shown i) := by
  rw [mem_dataRows, flipped, h.width_eq, List.mem_map]
  constructor
  · rintro ⟨i, hi, hl⟩
    by_cases hblank : t.BlankColumn i
    · rw [column, if_pos hblank] at hl
      cases hl
    · rw [h.column_eq hblank] at hl
      cases hl
      exact ⟨i, List.mem_range.mp hi, hblank, rfl⟩
  · rintro ⟨i, hi, hblank, rfl⟩
    exact ⟨i, List.mem_range.mpr hi, h.column_eq hblank⟩

theorem width_flipped (h : t.Restorable width) : t.flipped.width = t.rows.length := by
  apply Table.width_eq
  · obtain ⟨cs, hcs⟩ := List.exists_mem_of_ne_nil _ h.nonempty
    obtain ⟨i, hi, hblank⟩ := h.exists_column hcs
    have hmem : t.rows.map (Row.shown i) ∈ t.flipped.dataRows :=
      h.mem_dataRows_flipped.mpr ⟨i, hi, fun hi => hblank (hi cs hcs), rfl⟩
    exact List.ne_nil_of_mem hmem
  · intro l hl
    obtain ⟨i, -, -, rfl⟩ := h.mem_dataRows_flipped.mp hl
    exact List.length_map _

/-- A column shows every row what the row shows of it, blank columns included. -/
theorem shown_column (h : t.Restorable width) {k i : ℕ} {row : Row} (hk : t.rows[k]? = some row)
    (hi : i < width) : (t.column i).shown k = row.shown i := by
  by_cases hblank : t.BlankColumn i
  · rw [column, if_pos hblank]
    cases row with
    | separator => rfl
    | cells cs =>
      have hcs : cs ∈ t.dataRows := mem_dataRows.mpr (List.mem_of_getElem? hk)
      exact (h.empty_of_blank i hi hblank cs hcs).symm
  · rw [h.column_eq hblank, Row.shown_cells]
    simp [hk]

theorem column_flipped (h : t.Restorable width) {k : ℕ} {row : Row} (hk : t.rows[k]? = some row) :
    t.flipped.column k = row := by
  have hshown : ∀ i, (t.rows.map (Row.shown i)).getD k [] = row.shown i := by
    intro i
    simp [hk]
  cases row with
  | separator =>
    have hblank : t.flipped.BlankColumn k := by
      intro l hl
      obtain ⟨i, -, -, rfl⟩ := h.mem_dataRows_flipped.mp hl
      rw [hshown]
      rfl
    rw [column, if_pos hblank]
  | cells cs =>
    have hcs : cs ∈ t.dataRows := mem_dataRows.mpr (List.mem_of_getElem? hk)
    obtain ⟨i, hi, hne⟩ := h.exists_column hcs
    have hblank : ¬ t.flipped.BlankColumn k := by
      intro hk'
      have hmem : t.rows.map (Row.shown i) ∈ t.flipped.dataRows :=
        h.mem_dataRows_flipped.mpr ⟨i, hi, fun hi => hne (hi cs hcs), rfl⟩
      have hkblank := hk' _ hmem
      rw [hshown] at hkblank
      exact hne hkblank
    have hcells : t.flipped.rows.map (Row.shown k) = cs := by
      have hlen := h.length_eq cs hcs
      unfold flipped
      rw [List.map_map, h.width_eq, ← padCells_eq_self (Nat.le_of_eq hlen.symm),
        ← map_getD_range (Nat.le_of_eq hlen)]
      apply List.map_congr_left
      intro i hi
      exact h.shown_column hk (List.mem_range.mp hi)
    rw [column, if_neg hblank, hcells]
    rfl

theorem flipped_flipped (h : t.Restorable width) : t.flipped.flipped = t := by
  have hrows : (List.range t.rows.length).map t.flipped.column = t.rows := by
    apply List.ext_getElem
    · simp
    · intro k _ hk
      rw [List.getElem_map, List.getElem_range]
      exact h.column_flipped (List.getElem?_eq_getElem hk)
  have hheader := h.header_eq
  obtain ⟨header, rows⟩ := t
  rw [flipped, h.width_flipped, hrows]
  exact congrArg (Table.mk · rows) hheader.symm

end Restorable

/-! ## The header -/

/-- The table whose first row is the header. -/
def headerAsRow (t : Table) : Table := ⟨none, (t.header.map Row.cells).toList ++ t.rows⟩

theorem dataRows_headerAsRow (t : Table) : t.headerAsRow.dataRows = t.lines := by
  unfold headerAsRow lines dataRows
  cases t.header <;> rfl

/-- Without blank columns the header is flipped like a row. -/
theorem flipped_headerAsRow {t : Table} (h : ∀ i < t.width, ¬ t.BlankColumn i) :
    t.headerAsRow.flipped = t.flipped := by
  have hlines : t.headerAsRow.lines = t.lines := by
    rw [lines, dataRows_headerAsRow]
    rfl
  have hwidth : t.headerAsRow.width = t.width := by rw [width, width, hlines]
  unfold flipped
  rw [hwidth]
  congr 1
  apply List.map_congr_left
  intro i hi
  have hblank := h i (List.mem_range.mp hi)
  have hblank' : ¬ t.headerAsRow.BlankColumn i := by
    intro hi'
    apply hblank
    intro cs hcs
    apply hi'
    rw [dataRows_headerAsRow]
    exact List.mem_append_right _ hcs
  rw [column, if_neg hblank', column, if_neg hblank, headerAsRow]
  cases t.header <;> rfl

/-- The header of a table without blank rows or columns becomes the first row of a table that can be
restored. -/
theorem restorable_headerAsRow {t : Table} {header : List Text} (hheader : t.header = some header)
    (hnot : ∃ c ∈ header, ¬ Text.isBlank c) (hlen : ∀ cs ∈ t.dataRows, cs.length = header.length)
    (hrows : ∀ cs ∈ t.dataRows, ∃ c ∈ cs, ¬ Text.isBlank c)
    (hcolumns : ∀ i < header.length, ¬ t.BlankColumn i) :
    t.headerAsRow.Restorable header.length := by
  have hdata : t.headerAsRow.dataRows = header :: t.dataRows := by
    rw [dataRows_headerAsRow, lines, hheader]
    rfl
  constructor
  case header_eq => rfl
  case nonempty => simp [hdata]
  case length_eq => simpa [hdata] using hlen
  case not_blank =>
    rw [hdata]
    exact List.forall_mem_cons.mpr ⟨hnot, hrows⟩
  case empty_of_blank =>
    intro i hi hblank
    refine absurd (fun cs hcs => hblank cs ?_) (hcolumns i hi)
    rw [hdata]
    exact List.mem_cons_of_mem _ hcs

/-- Transposing all columns and rows twice restores a table without a header, and turns a header
into the first row. -/
theorem transposed_twice (E : Filter.Engine) {r r' : TransposeRequest} (hr : r.IsDefault)
    (hr' : r'.IsDefault) :
    (∀ (t : Table) (width : ℕ), t.Restorable width →
      (t.transposed E r >>= fun u => u.transposed E r') = .ok t) ∧
    ∀ (t : Table) (header : List Text), t.header = some header →
      (∃ c ∈ header, ¬ Text.isBlank c) →
      (∀ cs ∈ t.dataRows, cs.length = header.length) →
      (∀ cs ∈ t.dataRows, ∃ c ∈ cs, ¬ Text.isBlank c) →
      (∀ i < header.length, ¬ t.BlankColumn i) →
      (t.transposed E r >>= fun u => u.transposed E r') = .ok ⟨none, .cells header :: t.rows⟩ := by
  have hflip : ∀ t : Table,
      (t.transposed E r >>= fun u => u.transposed E r') = .ok t.flipped.flipped := by
    intro t
    rw [transposed_of_isDefault E t hr]
    exact transposed_of_isDefault E t.flipped hr'
  constructor
  · intro t width h
    rw [hflip, h.flipped_flipped]
  · intro t header hheader hnot hlen hrows hcolumns
    have h := restorable_headerAsRow hheader hnot hlen hrows hcolumns
    have hwidth : t.width = header.length := by
      apply width_eq
      · simp [lines, hheader]
      · simpa [lines, hheader] using hlen
    have hsame : t.headerAsRow.flipped = t.flipped :=
      flipped_headerAsRow (by rwa [hwidth])
    rw [hflip, ← hsame, h.flipped_flipped, headerAsRow, hheader]
    rfl

/-- Separators at both ends, repeated ones and an empty column come back, and so does a header. -/
theorem transposed_twice_separators :
    ((⟨none, [.separator, .cells ["a".toList, [], "1".toList], .separator, .separator,
        .cells [[' '], [], "2".toList], .separator]⟩ : Table).transposed Script.engine {} >>=
      fun u => u.transposed Script.engine {}) =
      .ok ⟨none, [.separator, .cells ["a".toList, [], "1".toList], .separator, .separator,
        .cells [[' '], [], "2".toList], .separator]⟩ ∧
    ((⟨some ["k".toList, []], [.separator, .cells ["1".toList, "2".toList]]⟩ :
      Table).transposed Script.engine {} >>= fun u => u.transposed Script.engine {}) =
      .ok ⟨none, [.cells ["k".toList, []], .separator, .cells ["1".toList, "2".toList]]⟩ := by
  have hdefault : TransposeRequest.IsDefault {} := ⟨by simp, by simp⟩
  have h := transposed_twice Script.engine hdefault hdefault
  constructor
  · exact h.1 _ 3 ⟨rfl, by decide, by decide, by decide, by decide⟩
  · exact h.2 _ _ rfl (by decide) (by decide) (by decide) (by decide)

end Table

end Rollup
