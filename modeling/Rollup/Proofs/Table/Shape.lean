import Mathlib.Data.List.Basic
import Rollup.Table.Basic

/-! # The shape of tables

The width of a table bounds all its lines. A line that is shorter is padded with empty cells.
-/

namespace Rollup

/-- A line with empty cells at the end, up to `width` cells in all. -/
def padCells (width : ℕ) (cells : List Text) : List Text :=
  cells ++ List.replicate (width - cells.length) []

def Row.padded (width : ℕ) : Row → Row
  | .separator => .separator
  | .cells cs => .cells (padCells width cs)

namespace Table

variable {t : Table}

theorem length_le_width {cells : List Text} (h : cells ∈ t.lines) : cells.length ≤ t.width := by
  have hmem : cells.length ∈ 0 :: t.lines.map List.length :=
    List.mem_cons_of_mem _ (List.mem_map_of_mem h)
  exact List.le_max_of_mem hmem

theorem width_le {n : ℕ} (h : ∀ cells ∈ t.lines, cells.length ≤ n) : t.width ≤ n := by
  have hne : 0 :: t.lines.map List.length ≠ [] := List.cons_ne_nil _ _
  apply (List.max_le_iff hne).mpr
  intro k hk
  rcases List.mem_cons.mp hk with rfl | hk
  · exact Nat.zero_le n
  · obtain ⟨cells, hcells, rfl⟩ := List.mem_map.mp hk
    exact h cells hcells

theorem width_eq {n : ℕ} (hne : t.lines ≠ []) (h : ∀ cells ∈ t.lines, cells.length = n) :
    t.width = n := by
  obtain ⟨cells, hcells⟩ := List.exists_mem_of_ne_nil _ hne
  apply Nat.le_antisymm
  · exact width_le fun cs hcs => Nat.le_of_eq (h cs hcs)
  · rw [← h cells hcells]
    exact length_le_width hcells

theorem lines_ne_nil (h : 0 < t.width) : t.lines ≠ [] := by
  intro hnil
  rw [width, hnil] at h
  cases h

/-- The rows as they are written, with the header on top and a separator under it. -/
def written (t : Table) : List Row :=
  (t.header.map fun cells => [.cells cells, .separator]).getD [] ++ t.rows

theorem lines_eq (t : Table) : t.lines = t.written.filterMap Row.cells? := by
  unfold lines written dataRows
  cases t.header <;> rfl

theorem mem_lines {cells : List Text} : cells ∈ t.lines ↔ Row.cells cells ∈ t.written := by
  rw [lines_eq, List.mem_filterMap]
  constructor
  · rintro ⟨row, hrow, hcells⟩
    cases row with
    | separator => cases hcells
    | cells cs =>
      cases hcells
      exact hrow
  · intro h
    exact ⟨.cells cells, h, rfl⟩

theorem mem_dataRows {cells : List Text} : cells ∈ t.dataRows ↔ Row.cells cells ∈ t.rows :=
  mem_lines (t := ⟨none, t.rows⟩)

/-- The table with every short line padded to its width. -/
def padded (t : Table) : Table :=
  ⟨t.header.map (padCells t.width), t.rows.map (Row.padded t.width)⟩

end Table

theorem padCells_eq_self {width : ℕ} {cells : List Text} (h : width ≤ cells.length) :
    padCells width cells = cells := by
  rw [padCells, Nat.sub_eq_zero_of_le h]
  simp

theorem map_padded_eq_self {width : ℕ} {rows : List Row}
    (h : ∀ cells, .cells cells ∈ rows → width ≤ cells.length) :
    rows.map (Row.padded width) = rows := by
  refine (List.map_congr_left ?_).trans (List.map_id rows)
  intro row hrow
  cases row with
  | separator => rfl
  | cells cells => rw [Row.padded, padCells_eq_self (h cells hrow), id]

/-- Looking up one cell after the other pads a line. -/
theorem map_getD_range {width : ℕ} {cells : List Text} (h : cells.length ≤ width) :
    (List.range width).map (cells.getD · []) = padCells width cells := by
  apply List.ext_getElem
  · simp [padCells, h]
  · intro i _ _
    rcases Nat.lt_or_ge i cells.length with hi | hi
    · simp [padCells, hi]
    · simp [padCells, hi]

end Rollup
