import Rollup.Proofs.Grouping
import Rollup.Table.Transpose

/-! # Chosen columns as rows

Every chosen column becomes one row, which shows the source rows in their order: those that grouping
with the same filter accepts, with the same blocks, and every separator. A row of a blank column is
a separator itself, and all others have one length.
-/

namespace Rollup

/-- What a source row shows at a position. Position 0 shows the block in decimal digits. A missing
cell and a separator show nothing. -/
def shownAt (position : ℕ) : Option BodyRow → Text
  | none => []
  | some r => if position = 0 then Text.ofNat r.block else (r.cells[position - 1]?).getD []

theorem BodyRow.cell_eq (position : ℕ) (r : BodyRow) : r.cell position = shownAt position r := by
  cases position <;> simp [BodyRow.cell, shownAt]

/-! ## The rows that stay -/

theorem Grouping.add_snd (g : Grouping) (r : BodyRow) : (g.add r).2 = r.passes g.filter := by
  unfold Grouping.add
  split
  case isTrue h => exact h.symm
  case isFalse h => exact (Bool.eq_false_iff.mpr h).symm

theorem filterMap_id_filter_all {α : Type} (p : α → Bool) (rows : List (Option α)) :
    (rows.filter (Option.all p)).filterMap id = (rows.filterMap id).filter p := by
  rw [List.filterMap_filter, List.filter_filterMap]
  refine List.filterMap_congr fun r _ => ?_
  cases r with
  | none => rfl
  | some r => simp [Option.filter]

theorem length_filterMap_id_add_count {α : Type} [DecidableEq α] (rows : List (Option α)) :
    (rows.filterMap id).length + rows.count none = rows.length := by
  induction rows with
  | nil => rfl
  | cons r rows ih =>
    cases r with
    | none => rw [List.filterMap_cons_none rfl, List.count_cons_self, ← Nat.add_assoc, ih]; rfl
    | some r =>
      rw [List.filterMap_cons_some (f := id) (b := r) rfl, List.count_cons_of_ne (by simp),
        List.length_cons, Nat.add_right_comm, ih]
      rfl

namespace Table

/-- The source rows without the data rows that grouping refuses. -/
def acceptedRows (t : Table) (keys : List ℕ) (filter : Option RowFilter) : List (Option BodyRow) :=
  t.sourceRows.filter fun r => r.all fun r => ((Grouping.start keys filter).add r).2

variable (t : Table) (keys : List ℕ) (filter : Option RowFilter)

theorem keptRows_eq : t.keptRows filter = t.acceptedRows keys filter := by
  unfold keptRows acceptedRows
  simp only [placedRows_eq, Grouping.add_snd, Grouping.start]

theorem filterMap_id_acceptedRows :
    (t.acceptedRows keys filter).filterMap id = accepted filter t.rowsInPlace := by
  unfold acceptedRows
  simp only [Grouping.add_snd, Grouping.start, filterMap_id_filter_all]
  rw [← placedRows_eq, ← bodyRows_eq]
  rfl

theorem count_none_placeRows (block : ℕ) (rows : List Row) :
    (placeRows block rows).count none = rows.count .separator := by
  induction rows generalizing block with
  | nil => rfl
  | cons row rows ih => cases row <;> simp [placeRows, ih]

theorem length_acceptedRows : (t.acceptedRows keys filter).length =
    ((t.acceptedRows keys filter).filterMap id).length + t.rows.count .separator := by
  have hcount : (t.acceptedRows keys filter).count none = t.rows.count .separator := by
    unfold acceptedRows
    rw [List.count_filter rfl, ← placedRows_eq]
    exact count_none_placeRows 0 t.rows
  rw [← hcount, length_filterMap_id_add_count]

/-- The groups hold the data rows that stay and no others. -/
theorem partition_acceptedRows :
    Partition keys ((t.acceptedRows keys filter).filterMap id) (t.groups keys filter) := by
  have hgrouped := (Grouping.holds_addAll_start keys filter t.rowsInPlace).grouped
  rw [filterMap_id_acceptedRows, groups_eq]
  dsimp only
  split
  case isTrue h =>
    rw [h.1, hgrouped.eq_nil_iff.mp h.2]
    exact partition_single
  case isFalse => exact hgrouped.partition

/-! ## One column as a row -/

/-- How a row shows a column of a table, given the source rows that stay. -/
structure ShowsColumn (rows : List (Option BodyRow)) (position : ℕ) (row : Row) : Prop where
  separator_iff : row = .separator ↔ ∀ r : BodyRow, some r ∈ rows → Text.isBlank (shownAt position r)
  length_eq : ∀ cs, row = .cells cs → cs.length =
    (if t.header.isSome then 1 else 0) + (rows.filterMap id).length + t.rows.count .separator
  header_eq : ∀ cs, row = .cells cs → ∀ header, t.header = some header →
    cs[0]? = some (if position = 0 then "hline".toList else (header[position - 1]?).getD [])
  entry_eq : ∀ cs, row = .cells cs → ∀ (k : ℕ) (r : Option BodyRow), rows[k]? = some r →
    cs[(if t.header.isSome then 1 else 0) + k]? = some (shownAt position r)

theorem columnAsRow_cases (header : Option (List Text)) (rows : List (Option BodyRow))
    (position : ℕ) :
    (∀ r : BodyRow, some r ∈ rows → Text.isBlank (shownAt position r)) ∧
        columnAsRow header rows position = .separator ∨
      ¬ (∀ r : BodyRow, some r ∈ rows → Text.isBlank (shownAt position r)) ∧
        columnAsRow header rows position =
          .cells ((header.map (headerCell · position)).toList ++ rows.map (shownAt position)) := by
  have hblank : ((rows.filterMap id).all fun r => Text.isBlank (r.cell position)) ↔
      ∀ r : BodyRow, some r ∈ rows → Text.isBlank (shownAt position r) := by
    simp only [List.all_eq_true, List.mem_filterMap, id_eq, exists_eq_right, BodyRow.cell_eq]
  have hshown : rows.map (fun r => (r.map (·.cell position)).getD []) =
      rows.map (shownAt position) := by
    refine List.map_congr_left fun r _ => ?_
    cases r with
    | none => rfl
    | some r => exact BodyRow.cell_eq position r
  unfold columnAsRow
  dsimp only
  rw [hshown]
  split
  case isTrue h => exact .inl ⟨hblank.mp h, rfl⟩
  case isFalse h => exact .inr ⟨fun hall => h (hblank.mpr hall), rfl⟩

theorem headerCell_eq (header : List Text) (position : ℕ) : headerCell header position =
    if position = 0 then "hline".toList else (header[position - 1]?).getD [] := by
  cases position <;> simp [headerCell, blockName]

theorem showsColumn_columnAsRow (position : ℕ) : t.ShowsColumn (t.acceptedRows keys filter) position
    (columnAsRow t.header (t.acceptedRows keys filter) position) := by
  rcases columnAsRow_cases t.header (t.acceptedRows keys filter) position with
    ⟨hblank, heq⟩ | ⟨hblank, heq⟩
  · rw [heq]
    exact ⟨iff_of_true rfl hblank, nofun, nofun, nofun⟩
  · rw [heq]
    have hlength := t.length_acceptedRows keys filter
    constructor
    case separator_iff => exact iff_of_false (by simp) hblank
    case length_eq =>
      rintro _ ⟨⟩
      rw [Nat.add_assoc, ← hlength]
      cases t.header <;> simp [Nat.add_comm]
    case header_eq =>
      rintro _ ⟨⟩ header hheader
      simp [hheader, headerCell_eq]
    case entry_eq =>
      rintro _ ⟨⟩ k r hr
      cases t.header <;> simp [hr, Nat.add_comm 1]

/-- Transposing gives a row for each of the chosen columns, in their order and without a header.
The data rows that it shows are those that grouping with any keys puts into groups. -/
theorem transpose_showsColumns (positions : List ℕ) :
    Partition keys ((t.acceptedRows keys filter).filterMap id) (t.groups keys filter) ∧
      (t.transpose positions filter).header = none ∧
      List.Forall₂ (t.ShowsColumn (t.acceptedRows keys filter)) positions
        (t.transpose positions filter).rows := by
  refine ⟨t.partition_acceptedRows keys filter, rfl, ?_⟩
  unfold transpose
  rw [t.keptRows_eq keys filter, List.forall₂_map_right_iff, List.forall₂_same]
  intro position _
  exact t.showsColumn_columnAsRow keys filter position

end Table

end Rollup
