import Mathlib.Data.List.Nodup
import Rollup.Group

/-! # Grouping partitions the rows

The groups that are built up row by row are the classes of the accepted rows by key, in the order in
which the keys first occur. Adding a row keeps that, and so does adding many.
-/

namespace Rollup

/-! ## What a partition is -/

/-- The index of the first row with a key, or the number of rows. -/
def firstIndex (keys : List Nat) (rows : List BodyRow) (key : List Text) : Nat :=
  rows.findIdx fun r => r.key keys = key

/-- The groups are the classes of the rows by the texts at the key positions. -/
structure Partition (keys : List Nat) (rows : List BodyRow) (gs : List Group) : Prop where
  keysDistinct : (gs.map Group.key).Nodup
  /-- Position 0 shows the block in decimal digits, and a missing cell counts as empty. -/
  memberKey : ∀ g ∈ gs, ∀ r ∈ g.rows, g.key = keys.map fun p =>
    if p = 0 then Text.ofNat r.block else (r.cells[p - 1]?).getD []
  /-- All groups together hold every row as often as it occurs, and nothing else. -/
  eachOnce : (gs.flatMap Group.rows).Perm rows
  oneGroup : ∀ r ∈ rows, ∃! g, g ∈ gs ∧ r ∈ g.rows
  rowsInOrder : ∀ g ∈ gs, g.rows = rows.filter fun r => r.key keys = g.key
  groupsInOrder : gs.Pairwise fun g h => firstIndex keys rows g.key < firstIndex keys rows h.key

/-! ## The invariant -/

/-- What is kept of the groups while rows are added. -/
structure Grouped (keys : List Nat) (rows : List BodyRow) (gs : List Group) : Prop where
  distinct : (gs.map Group.key).Nodup
  members : ∀ g ∈ gs, g.rows = rows.filter fun r => r.key keys = g.key
  nonempty : ∀ g ∈ gs, g.rows ≠ []
  permuted : (gs.flatMap Group.rows).Perm rows
  ordered : (gs.map Group.key).Pairwise fun j k => firstIndex keys rows j < firstIndex keys rows k

theorem grouped_nil (keys : List Nat) : Grouped keys [] [] := by
  constructor <;> simp

/-- A row joins the only group with its key, or starts a new one at the end. -/
theorem Group.insert_cases (key : List Text) (r : BodyRow) (gs : List Group) :
    (∃ before g after, gs = before ++ g :: after ∧ g.key = key ∧
      Group.insert key r gs = before ++ ⟨key, g.rows ++ [r]⟩ :: after) ∨
    (key ∉ gs.map Group.key ∧ Group.insert key r gs = gs ++ [⟨key, [r]⟩]) := by
  induction gs with
  | nil => exact .inr ⟨by simp, rfl⟩
  | cons g gs ih =>
    unfold Group.insert
    split
    case isTrue h => exact .inl ⟨[], g, gs, rfl, h, by rw [h]; rfl⟩
    case isFalse h =>
      rcases ih with ⟨before, g', after, rfl, hg, he⟩ | ⟨hk, he⟩
      · exact .inl ⟨g :: before, g', after, rfl, hg, by rw [he]; rfl⟩
      · refine .inr ⟨?_, by rw [he]; rfl⟩
        simp only [List.map_cons, List.mem_cons, not_or]
        exact ⟨fun e => h e.symm, hk⟩

/-! ## One more row -/

section Step

variable {keys : List Nat} {rows : List BodyRow} {gs : List Group}

theorem firstIndex_append_of_mem {key : List Text} (r : BodyRow)
    (h : ∃ s ∈ rows, s.key keys = key) :
    firstIndex keys (rows ++ [r]) key = firstIndex keys rows key := by
  obtain ⟨s, hs, hk⟩ := h
  have hlt : firstIndex keys rows key < rows.length :=
    List.findIdx_lt_length_of_exists ⟨s, hs, by simpa using hk⟩
  unfold firstIndex at *
  rw [List.findIdx_append, if_pos hlt]

theorem firstIndex_lt_of_mem {key : List Text} (h : ∃ s ∈ rows, s.key keys = key) :
    firstIndex keys rows key < rows.length := by
  obtain ⟨s, hs, hk⟩ := h
  exact List.findIdx_lt_length_of_exists ⟨s, hs, by simpa using hk⟩

theorem firstIndex_append_new {key : List Text} (r : BodyRow)
    (h : ∀ s ∈ rows, s.key keys ≠ key) (hr : r.key keys = key) :
    firstIndex keys (rows ++ [r]) key = rows.length := by
  have hlen : rows.findIdx (fun s => decide (s.key keys = key)) = rows.length :=
    List.findIdx_eq_length.mpr fun s hs => by simpa using h s hs
  simp [firstIndex, List.findIdx_append, hlen, hr]

/-- Every group has a row, which has its key. -/
theorem Grouped.exists_row (h : Grouped keys rows gs) {key : List Text}
    (hk : key ∈ gs.map Group.key) : ∃ s ∈ rows, s.key keys = key := by
  obtain ⟨g, hg, rfl⟩ := List.mem_map.mp hk
  obtain ⟨s, hs⟩ := List.exists_mem_of_ne_nil _ (h.nonempty g hg)
  rw [h.members g hg, List.mem_filter] at hs
  exact ⟨s, hs.1, by simpa using hs.2⟩

/-- Every row stands in the group with its key. -/
theorem Grouped.exists_group (h : Grouped keys rows gs) {s : BodyRow} (hs : s ∈ rows) :
    ∃ g ∈ gs, s ∈ g.rows ∧ g.key = s.key keys := by
  obtain ⟨g, hg, hm⟩ := List.mem_flatMap.mp (h.permuted.mem_iff.mpr hs)
  refine ⟨g, hg, hm, ?_⟩
  rw [h.members g hg, List.mem_filter] at hm
  exact (of_decide_eq_true hm.2).symm

/-- Old groups are ordered as before, since their keys occurred already. -/
theorem Grouped.ordered_append (h : Grouped keys rows gs) (r : BodyRow) :
    (gs.map Group.key).Pairwise fun j k =>
      firstIndex keys (rows ++ [r]) j < firstIndex keys (rows ++ [r]) k := by
  refine h.ordered.imp_of_mem fun {j k} hj hk hlt => ?_
  rwa [firstIndex_append_of_mem r (h.exists_row hj), firstIndex_append_of_mem r (h.exists_row hk)]

theorem filter_append_other {key : List Text} {r : BodyRow} (h : r.key keys ≠ key) :
    (rows ++ [r]).filter (fun s => s.key keys = key) = rows.filter fun s => s.key keys = key := by
  simp [h]

/-- The row joins a group. -/
theorem Grouped.join {before after : List Group} {g : Group} {r : BodyRow}
    (h : Grouped keys rows (before ++ g :: after)) (hg : g.key = r.key keys) :
    Grouped keys (rows ++ [r]) (before ++ ⟨r.key keys, g.rows ++ [r]⟩ :: after) := by
  have hkeys : (before ++ ⟨r.key keys, g.rows ++ [r]⟩ :: after).map Group.key =
      (before ++ g :: after).map Group.key := by simp [hg]
  have hother : ∀ g' ∈ before ++ after, r.key keys ≠ g'.key := by
    have hd := h.distinct
    rw [List.map_append, List.map_cons, List.nodup_middle, List.nodup_cons, ← List.map_append,
      hg] at hd
    intro g' hg' he
    exact hd.1 (he ▸ List.mem_map_of_mem hg')
  have hsplit : ∀ g', g' ∈ before ++ ⟨r.key keys, g.rows ++ [r]⟩ :: after →
      g' = ⟨r.key keys, g.rows ++ [r]⟩ ∨ g' ∈ before ++ after := by
    intro g' hg'
    simp only [List.mem_append, List.mem_cons] at hg' ⊢
    tauto
  have hold : ∀ g' ∈ before ++ after, g' ∈ before ++ g :: after := by
    intro g' hg'
    simp only [List.mem_append, List.mem_cons] at hg' ⊢
    tauto
  constructor
  case distinct => rw [hkeys]; exact h.distinct
  case members =>
    intro g' hg'
    rcases hsplit g' hg' with rfl | hg'
    · simp only [List.filter_append, ← hg]
      rw [h.members g (by simp)]
      simp [hg]
    · rw [filter_append_other (hother g' hg')]
      exact h.members g' (hold g' hg')
  case nonempty =>
    intro g' hg'
    rcases hsplit g' hg' with rfl | hg'
    · simp
    · exact h.nonempty g' (hold g' hg')
  case permuted =>
    have hp := h.permuted.append_right [r]
    simp only [List.flatMap_append, List.flatMap_cons, List.append_assoc] at hp ⊢
    refine .trans ?_ hp
    exact List.Perm.append_left _ (List.Perm.append_left _ List.perm_append_comm)
  case ordered => rw [hkeys]; exact h.ordered_append r

/-- The row starts a group. -/
theorem Grouped.extend {r : BodyRow} (h : Grouped keys rows gs)
    (hr : r.key keys ∉ gs.map Group.key) :
    Grouped keys (rows ++ [r]) (gs ++ [⟨r.key keys, [r]⟩]) := by
  have hnew : ∀ s ∈ rows, s.key keys ≠ r.key keys := by
    intro s hs he
    obtain ⟨g, hg, -, hk⟩ := h.exists_group hs
    exact hr (he ▸ hk ▸ List.mem_map_of_mem hg)
  constructor
  case distinct =>
    rw [List.map_append, List.map_singleton, List.nodup_append]
    refine ⟨h.distinct, List.nodup_singleton _, ?_⟩
    intro j hj k hk he
    rw [List.mem_singleton] at hk
    exact hr (hk ▸ he ▸ hj : (⟨r.key keys, [r]⟩ : Group).key ∈ gs.map Group.key)
  case members =>
    intro g hg
    rcases List.mem_append.mp hg with hg | hg
    · rw [filter_append_other fun he => hr (he ▸ List.mem_map_of_mem hg)]
      exact h.members g hg
    · obtain rfl := List.mem_singleton.mp hg
      have hnone : rows.filter (fun s => s.key keys = r.key keys) = [] :=
        List.filter_eq_nil_iff.mpr fun s hs => by simpa using hnew s hs
      rw [List.filter_append, hnone]
      simp
  case nonempty =>
    intro g hg
    rcases List.mem_append.mp hg with hg | hg
    · exact h.nonempty g hg
    · obtain rfl := List.mem_singleton.mp hg
      simp
  case permuted => simpa using h.permuted.append_right [r]
  case ordered =>
    rw [List.map_append, List.map_singleton, List.pairwise_append]
    refine ⟨h.ordered_append r, List.pairwise_singleton _ _, ?_⟩
    intro j hj k hk
    obtain rfl := List.mem_singleton.mp hk
    rw [firstIndex_append_new r hnew rfl, firstIndex_append_of_mem r (h.exists_row hj)]
    exact firstIndex_lt_of_mem (h.exists_row hj)

theorem Grouped.insert (h : Grouped keys rows gs) (r : BodyRow) :
    Grouped keys (rows ++ [r]) (Group.insert (r.key keys) r gs) := by
  rcases Group.insert_cases (r.key keys) r gs with ⟨before, g, after, rfl, hg, he⟩ | ⟨hr, he⟩
  · rw [he]; exact h.join hg
  · rw [he]; exact h.extend hr

end Step

/-! ## Any number of rows -/

/-- Adds rows one after the other. -/
def Grouping.addAll (g : Grouping) (rows : List BodyRow) : Grouping :=
  rows.foldl (fun g r => (g.add r).1) g

/-- The rows that a filter accepts, with their order. -/
def accepted (filter : Option RowFilter) (rows : List BodyRow) : List BodyRow :=
  rows.filter fun r => r.passes filter

/-- The groups are those of the rows accepted so far, and the keys and the filter never change. -/
structure Grouping.Holds (keys : List Nat) (filter : Option RowFilter) (rows : List BodyRow)
    (g : Grouping) : Prop where
  keys_eq : g.keys = keys
  filter_eq : g.filter = filter
  grouped : Grouped keys (accepted filter rows) g.groups

theorem Grouping.Holds.add {keys : List Nat} {filter : Option RowFilter} {rows : List BodyRow}
    {g : Grouping} (h : g.Holds keys filter rows) (r : BodyRow) :
    (g.add r).1.Holds keys filter (rows ++ [r]) := by
  obtain ⟨rfl, rfl, hg⟩ := h
  unfold Grouping.add
  split
  case isTrue hr =>
    refine ⟨rfl, rfl, ?_⟩
    rw [accepted, List.filter_append, List.filter_cons_of_pos hr, List.filter_nil]
    exact hg.insert r
  case isFalse hr =>
    refine ⟨rfl, rfl, ?_⟩
    rw [accepted, List.filter_append, List.filter_cons_of_neg hr, List.filter_nil, List.append_nil]
    exact hg

theorem Grouping.Holds.addAll {keys : List Nat} {filter : Option RowFilter} {before : List BodyRow}
    {g : Grouping} (h : g.Holds keys filter before) (rows : List BodyRow) :
    (g.addAll rows).Holds keys filter (before ++ rows) := by
  induction rows generalizing g before with
  | nil => simpa [Grouping.addAll] using h
  | cons r rows ih => simpa [Grouping.addAll] using ih (h.add r)

theorem Grouping.holds_addAll_start (keys : List Nat) (filter : Option RowFilter)
    (rows : List BodyRow) :
    ((Grouping.start keys filter).addAll rows).Holds keys filter rows := by
  have hstart : (Grouping.start keys filter).Holds keys filter [] :=
    ⟨rfl, rfl, grouped_nil keys⟩
  exact hstart.addAll rows

/-! ## From the invariant to the partition -/

theorem BodyRow.key_eq (keys : List Nat) (r : BodyRow) :
    r.key keys = keys.map fun p =>
      if p = 0 then Text.ofNat r.block else (r.cells[p - 1]?).getD [] := by
  refine List.map_congr_left fun p _ => ?_
  cases p <;> simp [BodyRow.cell]

section

variable {keys : List Nat} {rows : List BodyRow} {gs : List Group}

theorem Grouped.eq_of_key_eq (h : Grouped keys rows gs) {g g' : Group} (hg : g ∈ gs)
    (hg' : g' ∈ gs) (he : g.key = g'.key) : g = g' :=
  List.inj_on_of_nodup_map h.distinct hg hg' he

theorem Grouped.key_of_mem (h : Grouped keys rows gs) {g : Group} (hg : g ∈ gs) {r : BodyRow}
    (hr : r ∈ g.rows) : r.key keys = g.key := by
  rw [h.members g hg, List.mem_filter] at hr
  simpa using hr.2

theorem Grouped.partition (h : Grouped keys rows gs) : Partition keys rows gs where
  keysDistinct := h.distinct
  memberKey g hg r hr := by rw [← BodyRow.key_eq, h.key_of_mem hg hr]
  eachOnce := h.permuted
  oneGroup r hr := by
    obtain ⟨g, hg, hm, -⟩ := h.exists_group hr
    refine ⟨g, ⟨hg, hm⟩, ?_⟩
    rintro g' ⟨hg', hm'⟩
    exact h.eq_of_key_eq hg' hg ((h.key_of_mem hg' hm').symm.trans (h.key_of_mem hg hm))
  rowsInOrder := h.members
  groupsInOrder := (List.pairwise_map (f := Group.key)).mp h.ordered

theorem partition_single : Partition [] [] [⟨[], []⟩] := by
  constructor <;> simp

end

/-! ## The rows of a table -/

/-- The data rows of a table. The block of a row is the number of separators before it. -/
def Table.rowsInPlace (t : Table) : List BodyRow :=
  t.rows.zipIdx.filterMap fun (row, i) =>
    row.cells?.map fun cs => ⟨cs, (t.rows.take i).count .separator⟩

/-- All rows of a table in their places. Separators are no data rows and have no block. -/
def Table.sourceRows (t : Table) : List (Option BodyRow) :=
  t.rows.zipIdx.map fun (row, i) =>
    row.cells?.map fun cs => ⟨cs, (t.rows.take i).count .separator⟩

theorem placeRows_eq (before rows : List Row) :
    Table.placeRows (before.count .separator) rows =
      (rows.zipIdx before.length).map fun (row, i) =>
        row.cells?.map fun cs => ⟨cs, ((before ++ rows).take i).count .separator⟩ := by
  induction rows generalizing before with
  | nil => rfl
  | cons row rows ih =>
    have hnext := ih (before ++ [row])
    rw [List.append_assoc, List.singleton_append, List.length_append, List.length_singleton]
      at hnext
    cases row with
    | separator => simpa [Table.placeRows, Row.cells?] using hnext
    | cells cs => simpa [Table.placeRows, Row.cells?] using hnext

theorem Table.placedRows_eq (t : Table) : t.placedRows = t.sourceRows :=
  placeRows_eq [] t.rows

theorem Table.bodyRows_eq (t : Table) : t.bodyRows = t.rowsInPlace := by
  rw [bodyRows, placedRows_eq, sourceRows, List.filterMap_map]
  rfl

theorem Table.groups_eq (t : Table) (keys : List Nat) (filter : Option RowFilter) :
    t.groups keys filter =
      let gs := ((Grouping.start keys filter).addAll t.rowsInPlace).groups
      if keys = [] ∧ gs = [] then [⟨[], []⟩] else gs := by
  rw [← t.bodyRows_eq]
  rfl

theorem Grouped.eq_nil_iff {keys : List Nat} {rows : List BodyRow} {gs : List Group}
    (h : Grouped keys rows gs) : gs = [] ↔ rows = [] := by
  constructor
  · rintro rfl
    simpa using h.permuted.symm
  · rintro rfl
    rcases gs with _ | ⟨g, gs⟩
    · rfl
    · have hg := h.nonempty g List.mem_cons_self
      rw [h.members g List.mem_cons_self] at hg
      exact absurd rfl hg

/-- However rows are added, the groups partition those that the filter accepts. The groups of a
table partition its accepted rows, and none is empty unless there are no keys and no such rows. -/
theorem groups_partition (keys : List Nat) (filter : Option RowFilter) :
    (∀ rows : List BodyRow, Partition keys (accepted filter rows)
      ((Grouping.start keys filter).addAll rows).groups) ∧
    ∀ t : Table, Partition keys (accepted filter t.rowsInPlace) (t.groups keys filter) ∧
      (if keys = [] ∧ accepted filter t.rowsInPlace = [] then t.groups keys filter = [⟨[], []⟩]
        else ∀ g ∈ t.groups keys filter, g.rows ≠ []) := by
  refine ⟨fun rows => (Grouping.holds_addAll_start keys filter rows).grouped.partition, ?_⟩
  intro t
  have h := (Grouping.holds_addAll_start keys filter t.rowsInPlace).grouped
  rw [t.groups_eq]
  dsimp only
  by_cases hnone : keys = [] ∧ accepted filter t.rowsInPlace = []
  · rw [if_pos hnone, if_pos ⟨hnone.1, h.eq_nil_iff.mpr hnone.2⟩, hnone.1, hnone.2]
    exact ⟨partition_single, rfl⟩
  · rw [if_neg hnone, if_neg fun hgs => hnone ⟨hgs.1, h.eq_nil_iff.mp hgs.2⟩]
    exact ⟨h.partition, h.nonempty⟩

end Rollup
