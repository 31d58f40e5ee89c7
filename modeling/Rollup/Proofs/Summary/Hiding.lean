import Rollup.Proofs.Summary.Reading
import Rollup.Script.Evaluate

/-! # Hidden columns

A column that is hidden is computed like any other. Rows are grouped, sorted and cut into blocks by
it, and only its own cells are left out of what is shown.
-/

namespace Rollup

/-! ## A column as if it were written otherwise -/

/-- The column with its spec rewritten and hidden. -/
def OutputColumn.hidden (text : Text) (c : OutputColumn) : OutputColumn :=
  ⟨c.spec.rewritten text true, c.kind⟩

theorem Columns.output_hidden (columns : Columns) (text : Text) (spec : ColumnSpec) :
    columns.output (spec.rewritten text true) =
      (columns.output spec).map (OutputColumn.hidden text) := by
  have hliteral : (spec.rewritten text true).format.literal = spec.format.literal := rfl
  unfold Columns.output
  rw [hliteral]
  split
  · rfl
  · change (columns.formula spec.formula).map _ = _
    cases columns.formula spec.formula <;> rfl

theorem Columns.agree_read_hideMark (columns : Columns) {first last : Text}
    (hfirst : Text.openQuote first = none) (hlast : last = [] ∨ last.head? = some ';') :
    Agree (fun c c' => c' = c.hidden (first ++ ColumnSpec.hideMark ++ last))
      (columns.read (first ++ last)) (columns.read (first ++ ColumnSpec.hideMark ++ last)) := by
  refine (ColumnSpec.read_hideMark hfirst hlast).bind ?_
  rintro s _ rfl
  rw [Columns.output_hidden]
  cases columns.output s with
  | error failure => exact .error
  | ok c => exact .ok rfl

/-! ## What a summary makes of it -/

namespace Summary

theorem directives_congr {cs cs' : List OutputColumn}
    (h : cs.map (·.spec.sort) = cs'.map (·.spec.sort)) : directives cs = directives cs' := by
  have hplaced : ∀ cs : List OutputColumn, directives cs = Directive.inOrder
      ((cs.map (·.spec.sort)).zipIdx.filterMap fun (sort, i) =>
        sort.map fun s => ⟨i, s.key, s.descending, s.strength⟩) := by
    intro cs
    rw [List.zipIdx_map, List.filterMap_map]
    rfl
  rw [hplaced, hplaced, h]

section

variable {defaults : FormatDefaults} {c : OutputColumn} {before after : List OutputColumn}
  {text : Text}

theorem cellOf_hidden (members : List BodyRow) :
    cellOf defaults members (c.hidden text) = cellOf defaults members c := by
  obtain ⟨spec, kind⟩ := c
  cases kind <;> rfl

theorem sortsAlike_hidden :
    SortsAlike defaults (before ++ c :: after) (before ++ c.hidden text :: after) := by
  have hrow : rowOf defaults (before ++ c :: after) =
      rowOf defaults (before ++ c.hidden text :: after) := by
    funext members
    simp only [rowOf, List.map_append, List.map_cons, cellOf_hidden]
  have hdirectives : directives (before ++ c :: after) =
      directives (before ++ c.hidden text :: after) := by
    refine directives_congr ?_
    simp only [List.map_append, List.map_cons]
    rfl
  constructor
  case keys =>
    intro p
    have hkey : (c.hidden text).keyPosition? = c.keyPosition? := rfl
    simp only [mem_keyPositions, List.filterMap_append, List.filterMap_cons, hkey]
  case directives =>
    rw [← hdirectives, ← hrow]
    exact List.forall₂_same.mpr fun _ _ _ _ => rfl

theorem shown_append_cons (hvisible : c.spec.invisible = false) :
    shown (before ++ c :: after) = shown before ++ c :: shown after := by
  simp [shown, hvisible]

theorem shown_hidden : shown (before ++ c.hidden text :: after) = shown before ++ shown after := by
  simp [shown, OutputColumn.hidden, ColumnSpec.rewritten]

/-- The summary without the cells of the column. -/
theorem table_hidden (hvisible : c.spec.invisible = false) (t : Table) (filter : Option RowFilter)
    (depth : ℕ) :
    table t (before ++ c.hidden text :: after) filter depth defaults =
      (table t (before ++ c :: after) filter depth defaults).onLines
        (·.eraseIdx (shown before).length) := by
  refine sortsAlike_hidden.table_eq (fun item => ?_) t filter depth
  rw [shown_append_cons hvisible, shown_hidden, List.map_append, List.map_append, List.map_cons,
    List.eraseIdx_append_of_length_le (by simp)]
  simp

end

end Summary

/-- A spec that gets one more segment which hides its column gives the same summary or none, without
that column. Rows and separators stand as before. -/
theorem Table.summarize_hidden {E : Filter.Engine} {left right first last : Text}
    {before after : List Text} {r : SummaryRequest} (hcolumns : r.columns = left ++ right)
    (hplace : ColumnSpec.SegmentEnds left right before first last after)
    (hvisible : ∀ s, ColumnSpec.read (first ++ last) = .ok s → s.invisible = false) (t : Table) :
    Agree
      (fun out out' => ∃ n, out.HasWidth n ∧ (before.filter ColumnSpec.isShown).length < n ∧
        out' = out.onLines (·.eraseIdx (before.filter ColumnSpec.isShown).length))
      (t.summarize E r)
      (t.summarize E { r with columns := left ++ ColumnSpec.hideMark ++ right }) := by
  have hread : Agree
      (fun cs cs' => ∃ earlier c c' later,
        (before.filter (· ≠ [])).mapM t.columns.read = .ok earlier ∧
        (t.columns.read (first ++ last) = .ok c ∧
          c' = c.hidden (first ++ ColumnSpec.hideMark ++ last)) ∧
        cs = earlier ++ c :: later ∧ cs' = earlier ++ c' :: later)
      (t.outputColumns r.columns)
      (t.outputColumns (left ++ ColumnSpec.hideMark ++ right)) := by
    rw [hcolumns]
    refine Table.agree_outputColumns hplace.splitList ?_ ?_
    · rintro _ _ ⟨rfl, rfl⟩
      simp
    · rintro _ _ ⟨rfl, rfl⟩
      exact agree_mapM_append_cons (t.columns.agree_read_hideMark hplace.openQuote_first hplace.ends)
  refine Table.agree_summarize hread ?_
  rintro _ _ filter ⟨cs, c, _, cs', hcs, ⟨hc, rfl⟩, rfl, rfl⟩
  have hlength : (before.filter ColumnSpec.isShown).length = (Summary.shown cs).length := by
    -- blank pieces are left out before specs are read, and none of them would be shown
    have hblank : ColumnSpec.isShown [] = false := rfl
    have hbefore : before.filter ColumnSpec.isShown =
        (before.filter (· ≠ [])).filter ColumnSpec.isShown := by
      rw [List.filter_filter]
      refine List.filter_congr fun text _ => ?_
      cases text <;> simp [hblank]
    rw [hbefore, Columns.filter_isShown hcs, List.length_map]
  have hc := hvisible _ (Columns.read_spec hc)
  rw [hlength]
  refine ⟨_, Summary.hasWidth_table .., ?_, Summary.table_hidden hc ..⟩
  rw [Summary.shown_append_cons hc]
  simp

/-- A key that is hidden and still sorted. -/
theorem Table.summarize_hidden_key :
    ∃ out n, (⟨none, [.cells [['b']], .cells [['a']]]⟩ : Table).summarize Script.engine
        { columns := "$1;^a k;L".toList } = .ok out ∧ out.HasWidth n ∧ 0 < n ∧
      (⟨none, [.cells [['b']], .cells [['a']]]⟩ : Table).summarize Script.engine
        { columns := "$1;<>;^a k;L".toList } = .ok (out.onLines (·.eraseIdx 0)) := by
  have hkey : ColumnSpec.read ("$1".toList ++ ";^a".toList) = .ok
      { text := "$1;^a".toList, formula := ['$', '1'], sort := some ⟨.alphabetic, false, none⟩ } :=
    rfl
  have hliteral : ColumnSpec.read "k;L".toList = .ok
      { text := "k;L".toList, formula := ['k'], format := { literal := true } } := by
    with_unfolding_all rfl
  have hplace : ColumnSpec.SegmentEnds "$1".toList ";^a k;L".toList [] "$1".toList ";^a".toList
      ["k;L".toList] :=
    { left_pieces := rfl
      right_pieces := rfl
      unquoted := rfl
      ends := .inr rfl
      spec_ne_nil := List.cons_ne_nil _ _ }
  have hvisible : ∀ s, ColumnSpec.read ("$1".toList ++ ";^a".toList) = .ok s →
      s.invisible = false := by
    rintro s hs
    rw [hkey] at hs
    cases hs
    rfl
  obtain ⟨out, hout⟩ : ∃ out, (⟨none, [.cells [['b']], .cells [['a']]]⟩ : Table).summarize
      Script.engine { columns := "$1;^a k;L".toList } = .ok out := by
    have hsplit : ColumnSpec.splitList "$1;^a k;L".toList =
        .ok ["$1;^a".toList, "k;L".toList] := rfl
    refine Table.exists_summarize hsplit (List.cons_ne_nil _ _) ?_ rfl
    exact List.forall_mem_cons.mpr
      ⟨⟨_, Columns.read_first_column (by decide) hkey rfl rfl⟩,
        List.forall_mem_singleton.mpr ⟨_, Columns.read_literal hliteral rfl⟩⟩
  have hagree := @Table.summarize_hidden Script.engine _ _ _ _ _ _
    { columns := "$1;^a k;L".toList } rfl hplace hvisible ⟨none, [.cells [['b']], .cells [['a']]]⟩
  obtain ⟨_, hout', n, hwidth, hlt, rfl⟩ := hagree.exists_right hout
  exact ⟨out, n, hout, hwidth, hlt, hout'⟩

end Rollup
