import Rollup.Proofs.Double.Whole
import Rollup.Proofs.Summary.Reading
import Rollup.Script.Evaluate

/-! # Summaries that count

A summary has one row for every key that occurs among the accepted rows. When it shows its keys and
a count, it is the histogram of those rows.
-/

namespace Rollup

namespace Summary

/-- The key columns, one after the other, each as often as it is named. -/
def namedKeys (cs : List OutputColumn) : List ℕ := cs.filterMap OutputColumn.keyPosition?

/-- The keys of the rows that the filter accepts, row by row. -/
def keysOfRows (t : Table) (cs : List OutputColumn) (filter : Option RowFilter) :
    List (List Text) :=
  (accepted filter t.rowsInPlace).map (BodyRow.key (namedKeys cs))

section

variable (t : Table) (cs : List OutputColumn) (filter : Option RowFilter) (depth : ℕ)
  (defaults : FormatDefaults)

theorem perm_dataRows : (table t cs filter depth defaults).dataRows.Perm
    ((t.groups (namedKeys cs) filter).map fun g => rowOf defaults (shown cs) g.rows) := by
  have hmembers := perm_sortedMembers t cs filter defaults
  rw [t.map_rows_groups (fun _ => mem_keyPositions)] at hmembers
  rw [dataRows_table]
  exact (hmembers.map _).trans (.of_eq (List.map_map ..))

/-- There is one row for every key, and one row in all when there are no key columns. -/
theorem length_dataRows : (table t cs filter depth defaults).dataRows.length =
    if namedKeys cs = [] then 1 else (keysOfRows t cs filter).dedup.length := by
  rw [(perm_dataRows t cs filter depth defaults).length_eq, List.length_map]
  split
  case isTrue hkeys => rw [hkeys, Table.length_groups_nil]
  case isFalse hkeys =>
    have hgroups := (t.grouped_groups hkeys filter).perm_dedup.length_eq
    rwa [List.length_map] at hgroups

end

/-! ## Keys and a count -/

/-- A count in the default format: in digits, unless there are more of them than that format takes.
-/
def countText (n : ℕ) : Text :=
  if n < 10 ^ 15 then Text.ofNat n else (Value.number (Float.ofNat n)).display

theorem display_count (n : ℕ) : (Value.number (Float.ofNat n)).display = countText n := by
  unfold countText
  split
  case isTrue h => exact Value.display_ofNat h
  case isFalse => rfl

/-- The columns are keys, and a count of rows in the default format stands among them. All of them
are shown. -/
structure Counts (before : List OutputColumn) (count : OutputColumn) (after : List OutputColumn) :
    Prop where
  keys : ∀ c ∈ before ++ after, c.keyPosition?.isSome
  keys_ne_nil : before ++ after ≠ []
  shown : ∀ c ∈ before ++ count :: after, c.spec.invisible = false
  kind : count.kind = .formula (.call (.aggregate .count) [])
  format : count.spec.format = {}

theorem map_cellOf_keys {cs : List OutputColumn} (h : ∀ c ∈ cs, c.keyPosition?.isSome)
    (defaults : FormatDefaults) (r : BodyRow) (rest : List BodyRow) :
    cs.map (cellOf defaults (r :: rest)) = r.key (namedKeys cs) := by
  induction cs with
  | nil => rfl
  | cons c cs ih =>
    obtain ⟨hc, hcs⟩ := List.forall_mem_cons.mp h
    obtain ⟨position, hposition⟩ := Option.isSome_iff_exists.mp hc
    have hkind : c.kind = .key position := by
      unfold OutputColumn.keyPosition? at hposition
      split at hposition <;> cases hposition
      assumption
    have hcell : cellOf defaults (r :: rest) c = r.cell position := by
      rw [cellOf, hkind]
      rfl
    have hkeys : namedKeys (c :: cs) = position :: namedKeys cs :=
      List.filterMap_cons_some hposition
    rw [List.map_cons, ih hcs, hcell, hkeys]
    rfl

section Counts

variable {before after : List OutputColumn} {count : OutputColumn}

theorem cellOf_count (h : Counts before count after) (members : List BodyRow) :
    cellOf {} members count = countText members.length := by
  rw [cellOf, h.kind]
  dsimp only
  rw [formulaOf, h.format]
  exact display_count members.length

theorem Counts.namedKeys_eq (h : Counts before count after) :
    namedKeys (before ++ count :: after) = namedKeys before ++ namedKeys after := by
  have hcount : count.keyPosition? = none := by rw [OutputColumn.keyPosition?, h.kind]
  rw [namedKeys, List.filterMap_append, List.filterMap_cons_none hcount]
  rfl

theorem Counts.namedKeys_ne_nil (h : Counts before count after) :
    namedKeys (before ++ count :: after) ≠ [] := by
  obtain ⟨c, hc⟩ := List.exists_mem_of_ne_nil _ h.keys_ne_nil
  obtain ⟨position, hposition⟩ := Option.isSome_iff_exists.mp (h.keys c hc)
  have hmem : position ∈ namedKeys (before ++ after) := List.mem_filterMap.mpr ⟨c, hc, hposition⟩
  rw [namedKeys, List.filterMap_append] at hmem
  rw [h.namedKeys_eq]
  exact List.ne_nil_of_mem hmem

theorem Counts.shown_eq (h : Counts before count after) :
    Summary.shown (before ++ count :: after) = before ++ count :: after :=
  List.filter_eq_self.mpr fun c hc => by simp [h.shown c hc]

/-- The row of a group shows its key, and the number of its members in between. -/
theorem Counts.rowOf_eq (h : Counts before count after) (r : BodyRow) (rest : List BodyRow) :
    rowOf {} (before ++ count :: after) (r :: rest) =
      (r.key (namedKeys (before ++ count :: after))).take before.length ++
        countText (r :: rest).length ::
        (r.key (namedKeys (before ++ count :: after))).drop before.length := by
  have hkeys := List.forall_mem_append.mp h.keys
  have hbefore := map_cellOf_keys hkeys.1 {} r rest
  have hlength : (r.key (namedKeys before)).length = before.length := by
    rw [← hbefore, List.length_map]
  have hkey : r.key (namedKeys (before ++ count :: after)) =
      r.key (namedKeys before) ++ r.key (namedKeys after) := by
    rw [h.namedKeys_eq]
    exact List.map_append
  rw [rowOf, List.map_append, List.map_cons, hbefore, map_cellOf_keys hkeys.2, cellOf_count h, hkey,
    List.take_left' hlength, List.drop_left' hlength]

theorem Counts.perm_dataRows (h : Counts before count after) (t : Table)
    (filter : Option RowFilter) (depth : ℕ) :
    (table t (before ++ count :: after) filter depth {}).dataRows.Perm
      ((keysOfRows t (before ++ count :: after) filter).dedup.map fun key =>
        key.take before.length ++
          countText ((keysOfRows t (before ++ count :: after) filter).count key) ::
          key.drop before.length) := by
  have hgrouped := t.grouped_groups h.namedKeys_ne_nil filter
  refine (Summary.perm_dataRows ..).trans (.trans (.of_eq ?_) (hgrouped.perm_dedup.map _))
  rw [List.map_map, h.shown_eq]
  refine List.map_congr_left fun g hg => ?_
  have hlength := hgrouped.length_rows hg
  obtain ⟨r, rest, hrows⟩ := List.exists_cons_of_ne_nil (hgrouped.nonempty g hg)
  have hkey : r.key (namedKeys (before ++ count :: after)) = g.key :=
    hgrouped.key_of_mem hg (hrows ▸ List.mem_cons_self)
  rw [hrows] at hlength ⊢
  rw [h.rowOf_eq, hkey, hlength]
  rfl

end Counts

end Summary

/-- Every row of a summary is as long as its header, and there is one for every key that occurs
among the accepted rows. With keys and a count for columns the rows are those keys, each with the
number of accepted rows that have it. -/
theorem Table.summarize_counts {E : Filter.Engine} {t out : Table} {r : SummaryRequest}
    (h : t.summarize E r = .ok out) :
    ∃ cs filter, t.outputColumns r.columns = .ok cs ∧
      t.columns.optionalFilter E r.rowFilter = .ok filter ∧
      (∃ n, out.HasWidth n) ∧
      out.dataRows.length = (if Summary.namedKeys cs = [] then 1
        else (Summary.keysOfRows t cs filter).dedup.length) ∧
      (r.format = {} → ∀ before count after, cs = before ++ count :: after →
        Summary.Counts before count after →
          out.dataRows.Perm ((Summary.keysOfRows t cs filter).dedup.map fun key =>
            key.take before.length ++
              Summary.countText ((Summary.keysOfRows t cs filter).count key) ::
              key.drop before.length)) := by
  obtain ⟨cs, hcs, h⟩ := exists_of_bind_eq_ok h
  obtain ⟨filter, hfilter, h⟩ := exists_of_bind_eq_ok h
  cases h
  refine ⟨cs, filter, hcs, hfilter, ⟨_, Summary.hasWidth_table ..⟩, Summary.length_dataRows .., ?_⟩
  rintro hformat before count after rfl hcounts
  rw [hformat]
  exact hcounts.perm_dataRows t filter _

/-- Three rows with two keys between them. -/
theorem Table.summarize_counts_two_keys :
    ∃ out, (⟨none, [.cells [['a']], .cells [['b']], .cells [['a']]]⟩ : Table).summarize
        Script.engine { columns := "$1 count()".toList } = .ok out ∧
      out.dataRows.Perm [[['b'], ['1']], [['a'], ['2']]] := by
  have hkey : ColumnSpec.read "$1".toList = .ok { text := "$1".toList, formula := ['$', '1'] } :=
    rfl
  have hcount : ColumnSpec.read "count()".toList = .ok
      { text := "count()".toList, formula := "count()".toList } := rfl
  have hsplit : ColumnSpec.splitList "$1 count()".toList =
      .ok ["$1".toList, "count()".toList] := rfl
  have hread : ["$1".toList, "count()".toList].mapM (Columns.read ⟨none, 1⟩) = .ok
      [⟨{ text := "$1".toList, formula := ['$', '1'] }, .key 1⟩,
        ⟨{ text := "count()".toList, formula := "count()".toList },
          .formula (.call (.aggregate .count) [])⟩] :=
    mapM_eq_ok_iff.mpr (.cons (Columns.read_first_column (by decide) hkey rfl rfl)
      (.cons (Columns.read_count hcount rfl rfl) .nil))
  obtain ⟨out, hout⟩ : ∃ out, (⟨none, [.cells [['a']], .cells [['b']], .cells [['a']]]⟩ :
      Table).summarize Script.engine { columns := "$1 count()".toList } = .ok out :=
    Table.exists_summarize hsplit (List.cons_ne_nil _ _) (List.forall_mem_cons.mpr
      ⟨⟨_, Columns.read_first_column (by decide) hkey rfl rfl⟩,
        List.forall_mem_singleton.mpr ⟨_, Columns.read_count hcount rfl rfl⟩⟩) rfl
  refine ⟨out, hout, ?_⟩
  obtain ⟨cs, filter, hcs, hfilter, -, -, hperm⟩ := Table.summarize_counts hout
  obtain ⟨texts, htexts, -, hcs⟩ := Table.outputColumns_eq_ok_iff.mp hcs
  cases hsplit.symm.trans htexts
  cases hread.symm.trans hcs
  cases hfilter
  refine (hperm rfl [_] _ [] rfl ?_).trans (.of_eq ?_)
  · exact
      { keys := by simp [OutputColumn.keyPosition?]
        keys_ne_nil := List.cons_ne_nil _ _
        shown := by simp
        kind := rfl
        format := rfl }
  · decide

end Rollup
