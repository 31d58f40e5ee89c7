import Rollup.Proofs.Sort.Rows
import Rollup.Script.Evaluate
import Rollup.Summary.Basic

/-! # The blocks of a summary

Separators stand where the keys of the leading directives change. Rows that are in order under all
directives are in order under the leading ones, so that rows with equal keys are neighbours, and
every class of them is one block.
-/

namespace Rollup.Summary

open Directive (changes sameKeys)

/-! ## Rows cut where neighbours differ -/

section Cut

variable {ρ : Type} (same : ρ → ρ → Bool) (shown : ρ → List Text)

def cut : List ρ → List Row
  | [] => []
  | [a] => [.cells (shown a)]
  | a :: b :: rest =>
    if same a b then .cells (shown a) :: cut (b :: rest)
    else .cells (shown a) :: .separator :: cut (b :: rest)

theorem cut_eq_cells_cons (a : ρ) (rows : List ρ) :
    ∃ rest, cut same shown (a :: rows) = .cells (shown a) :: rest := by
  cases rows with
  | nil => exact ⟨_, rfl⟩
  | cons b rows =>
    unfold cut
    split <;> exact ⟨_, rfl⟩

theorem filterMap_cells_cut (rows : List ρ) :
    (cut same shown rows).filterMap Row.cells? = rows.map shown := by
  induction rows with
  | nil => rfl
  | cons a rows ih =>
    cases rows with
    | nil => rfl
    | cons b rows =>
      unfold cut
      split <;> simp [List.filterMap_cons, Row.cells?, ih]

theorem head?_cut_ne (rows : List ρ) : (cut same shown rows).head? ≠ some .separator := by
  cases rows with
  | nil => simp [cut]
  | cons a rows =>
    obtain ⟨rest, hrest⟩ := cut_eq_cells_cons same shown a rows
    simp [hrest]

theorem getLast?_cut_ne (rows : List ρ) : (cut same shown rows).getLast? ≠ some .separator := by
  induction rows with
  | nil => simp [cut]
  | cons a rows ih =>
    cases rows with
    | nil => simp [cut]
    | cons b rows =>
      obtain ⟨rest, hrest⟩ := cut_eq_cells_cons same shown b rows
      unfold cut
      rw [hrest] at ih ⊢
      split <;> simpa using ih

theorem isChain_cut (rows : List ρ) :
    (cut same shown rows).IsChain fun r s => ¬ (r = .separator ∧ s = .separator) := by
  induction rows with
  | nil => exact .nil
  | cons a rows ih =>
    cases rows with
    | nil => exact .singleton _
    | cons b rows =>
      obtain ⟨rest, hrest⟩ := cut_eq_cells_cons same shown b rows
      unfold cut
      rw [hrest] at ih ⊢
      split
      · exact .cons_cons (by simp) ih
      · exact .cons_cons (by simp) (.cons_cons (by simp) ih)

/-! ## Block numbers -/

def blockNumbers (block : ℕ) : List ρ → List ℕ
  | [] => []
  | [_] => [block]
  | a :: b :: rest => block :: blockNumbers (if same a b then block else block + 1) (b :: rest)

theorem length_blockNumbers (block : ℕ) (rows : List ρ) :
    (blockNumbers same block rows).length = rows.length := by
  fun_induction blockNumbers same block rows with
  | case1 => rfl
  | case2 => rfl
  | case3 block a b rest ih => simpa using ih

theorem le_of_mem_blockNumbers {block n : ℕ} {rows : List ρ}
    (h : n ∈ blockNumbers same block rows) : block ≤ n := by
  fun_induction blockNumbers same block rows with
  | case1 => cases h
  | case2 => exact (List.mem_singleton.mp h).ge
  | case3 block a b rest ih =>
    rcases List.mem_cons.mp h with rfl | h
    · exact le_refl _
    · have hle := ih h
      split at hle <;> omega

theorem placeRows_cut (block : ℕ) (rows : List ρ) :
    (Table.placeRows block (cut same shown rows)).filterMap id =
      (rows.zip (blockNumbers same block rows)).map fun p => ⟨shown p.1, p.2⟩ := by
  fun_induction blockNumbers same block rows with
  | case1 => rfl
  | case2 => rfl
  | case3 block a b rest ih =>
    unfold cut
    split at ih <;> simp_all [Table.placeRows]

theorem blockNumbers_cons (block : ℕ) (a : ρ) (rows : List ρ) :
    ∃ rest, blockNumbers same block (a :: rows) = block :: rest := by
  cases rows <;> exact ⟨_, rfl⟩

theorem eq_of_between {cmp : ρ → ρ → Ordering} [Std.TransCmp cmp] {a b c : ρ}
    (hab : (cmp a b).isLE) (hbc : (cmp b c).isLE) (hac : cmp a c = .eq) : cmp a b = .eq := by
  have hca : (cmp c a).isLE := by simp [Std.OrientedCmp.eq_symm hac]
  exact Std.OrientedCmp.isLE_antisymm hab (Std.TransCmp.isLE_trans hbc hca)

/-- In rows that are in order, the same rows have the same numbers and others have not. -/
theorem pairwise_blockNumbers {cmp : ρ → ρ → Ordering} [Std.TransCmp cmp]
    (hsame : ∀ a b, same a b ↔ cmp a b = .eq) (block : ℕ) {rows : List ρ}
    (hrows : rows.Pairwise fun a b => (cmp a b).isLE) :
    (rows.zip (blockNumbers same block rows)).Pairwise fun p q => p.2 = q.2 ↔ same p.1 q.1 := by
  fun_induction blockNumbers same block rows with
  | case1 => exact .nil
  | case2 => exact List.pairwise_singleton _ _
  | case3 block a b rest ih =>
    obtain ⟨ha, hrest⟩ := List.pairwise_cons.mp hrows
    have hb := (List.pairwise_cons.mp hrest).1
    refine List.pairwise_cons.mpr ⟨fun ⟨c, n⟩ hc => ?_, ih hrest⟩
    replace ih := ih hrest
    change block = n ↔ same a c
    replace hc : (c, n) ∈ (b :: rest).zip _ := hc
    by_cases hab : same a b
    · -- The number of `a` is that of `b`, for which the induction hypothesis speaks.
      rw [if_pos hab] at ih hc
      obtain ⟨numbers, hnumbers⟩ := blockNumbers_cons same block b rest
      rw [hnumbers, List.zip_cons_cons] at ih hc
      rcases List.mem_cons.mp hc with h | h
      · cases h
        exact iff_of_true rfl hab
      · rw [(List.pairwise_cons.mp ih).1 _ h, hsame, hsame,
          Std.TransCmp.congr_left ((hsame a b).mp hab)]
    · rw [if_neg hab] at hc
      have hn := le_of_mem_blockNumbers same (List.of_mem_zip hc).2
      refine iff_of_false (by omega) fun hac => hab ?_
      have hbc : (cmp b c).isLE := by
        rcases List.mem_cons.mp (List.of_mem_zip hc).1 with rfl | h
        · exact Std.ReflCmp.isLE_rfl
        · exact hb c h
      exact (hsame a b).mpr (eq_of_between (ha b (by simp)) hbc ((hsame a c).mp hac))

end Cut

/-! ## Separators at changes -/

theorem le_of_mem_changes {next start : ℕ} {keys : List (List SortValue)}
    (h : start ∈ changes next keys) : next ≤ start := by
  fun_induction changes next keys with
  | case1 next a b rest _ ih =>
    have hle := ih h
    omega
  | case2 next a b rest _ ih =>
    rcases List.mem_cons.mp h with rfl | h
    · exact le_refl _
    · have hle := ih h
      omega
  | case3 => cases h

theorem separate_of_lt {next : ℕ} {starts : List ℕ} (h : ∀ start ∈ starts, next < start)
    (r : List Text) (rows : List (List Text)) :
    separate next starts (r :: rows) = .cells r :: separate (next + 1) starts rows := by
  cases starts with
  | nil => rfl
  | cons start starts => rw [separate, if_neg (h start (by simp)).ne']

theorem separate_self {next : ℕ} {starts : List ℕ} (h : ∀ start ∈ starts, next < start)
    (r : List Text) (rows : List (List Text)) :
    separate next (next :: starts) (r :: rows) =
      .separator :: separate next starts (r :: rows) := by
  rw [separate_of_lt h, separate, if_pos rfl]

theorem separate_changes {ρ : Type} (keys : ρ → List SortValue) (shown : ρ → List Text)
    (next : ℕ) (rows : List ρ) :
    separate next (changes (next + 1) (rows.map keys)) (rows.map shown) =
      cut (fun a b => sameKeys (keys a) (keys b)) shown rows := by
  induction rows generalizing next with
  | nil => rfl
  | cons a rows ih =>
    have hlt : ∀ start ∈ changes (next + 1) ((a :: rows).map keys), next < start :=
      fun start h => le_of_mem_changes h
    rw [List.map_cons (f := shown), separate_of_lt hlt]
    cases rows with
    | nil => rfl
    | cons b rows =>
      have hih := ih (next + 1)
      unfold cut
      rw [List.map_cons, List.map_cons, changes]
      split
      · exact congrArg _ hih
      · rw [List.map_cons (f := shown), separate_self fun start h => le_of_mem_changes h]
        exact congrArg _ (congrArg _ hih)

/-! ## The rows of a summary -/

section Rows

variable (t : Table) (cs : List OutputColumn) (filter : Option RowFilter) (depth : ℕ)
  (defaults : FormatDefaults)

theorem rows_table : (table t cs filter depth defaults).rows =
    cut (Directive.alike ((directives cs).take depth)) (visible cs)
      (sortedRows t cs filter defaults) := by
  have h := separate_changes (Directive.keys ((directives cs).take depth)) (visible cs) 0
    (sortedRows t cs filter defaults)
  simp only [Directive.sameKeys_eq_alike] at h
  exact h

end Rows

end Rollup.Summary

namespace Rollup

/-- The block in which a data row stands. -/
def Table.blockOf (t : Table) (i : ℕ) : Option ℕ := t.bodyRows[i]?.map BodyRow.block

/-- The data rows are the given ones, as they are shown, and the separators cut them into the classes
of rows that are the same. -/
structure Table.Separates (t : Table) (same : List Text → List Text → Bool)
    (shown : List Text → List Text) (rows : List (List Text)) : Prop where
  dataRows : t.dataRows = rows.map shown
  noneFirst : t.rows.head? ≠ some .separator
  noneLast : t.rows.getLast? ≠ some .separator
  noneAdjacent : t.rows.IsChain fun r s => ¬ (r = .separator ∧ s = .separator)
  blocks : ∀ i j (hi : i < rows.length) (hj : j < rows.length),
    t.blockOf i = t.blockOf j ↔ same rows[i] rows[j]

namespace Summary

section Rows

variable {same : List Text → List Text → Bool} {shown : List Text → List Text}
  {cmp : List Text → List Text → Ordering} [Std.TransCmp cmp] {t : Table} {rows : List (List Text)}

theorem blockOf_eq (hcut : t.rows = cut same shown rows) {i : ℕ}
    (hi : i < (blockNumbers same 0 rows).length) :
    t.blockOf i = some (blockNumbers same 0 rows)[i] := by
  have hbody : t.bodyRows =
      (rows.zip (blockNumbers same 0 rows)).map fun p => ⟨shown p.1, p.2⟩ := by
    rw [Table.bodyRows, Table.placedRows, hcut, placeRows_cut]
  have hzip : i < (rows.zip (blockNumbers same 0 rows)).length := by
    rwa [List.length_zip, length_blockNumbers, min_self, ← length_blockNumbers same 0]
  rw [Table.blockOf, hbody, List.getElem?_map, List.getElem?_eq_getElem hzip, List.getElem_zip]
  rfl

theorem separates_of_cut (hsame : ∀ a b, same a b ↔ cmp a b = .eq)
    (hrows : rows.Pairwise fun a b => (cmp a b).isLE) (hcut : t.rows = cut same shown rows) :
    t.Separates same shown rows where
  dataRows := by rw [Table.dataRows, hcut, filterMap_cells_cut]
  noneFirst := hcut ▸ head?_cut_ne same shown rows
  noneLast := hcut ▸ getLast?_cut_ne same shown rows
  noneAdjacent := hcut ▸ isChain_cut same shown rows
  blocks := by
    have hpair := List.pairwise_iff_getElem.mp (pairwise_blockNumbers same hsame 0 hrows)
    have hlt : ∀ i j (hi : i < rows.length) (hj : j < rows.length), i < j →
        (t.blockOf i = t.blockOf j ↔ same rows[i] rows[j]) := by
      intro i j hi hj hij
      rw [blockOf_eq hcut (by rwa [length_blockNumbers]),
        blockOf_eq hcut (by rwa [length_blockNumbers]), Option.some_inj]
      have h := hpair i j (by rwa [List.length_zip, length_blockNumbers, min_self])
        (by rwa [List.length_zip, length_blockNumbers, min_self]) hij
      rwa [List.getElem_zip, List.getElem_zip] at h
    intro i j hi hj
    rcases lt_trichotomy i j with hij | rfl | hij
    · exact hlt i j hi hj hij
    · exact iff_of_true rfl ((hsame _ _).mpr Std.ReflCmp.compare_self)
    · rw [eq_comm, hlt j i hj hi hij, hsame, hsame, Std.OrientedCmp.eq_comm]

end Rows

end Summary

/-- A summary shows the visible cells of the sorted rows of its groups, and its blocks are the
classes of rows whose keys for the leading directives are the same. -/
theorem Table.summarize_separates {E : Filter.Engine} {t out : Table} {r : SummaryRequest}
    (h : t.summarize E r = .ok out) :
    ∃ cs filter rows, t.outputColumns r.columns = .ok cs ∧
      t.columns.optionalFilter E r.rowFilter = .ok filter ∧
      rows = Summary.sortedRows t cs filter r.format ∧
      rows.Perm ((t.groups (Summary.keyPositions cs) filter).map (·.cells r.format cs)) ∧
      rows.Pairwise (Directive.NotAfter (Summary.directives cs)) ∧
      out.Separates (Directive.alike ((Summary.directives cs).take
        (min (r.separatorDepth.getD 0) (Summary.directives cs).length))) (Summary.visible cs) rows := by
  obtain ⟨cs, hcs, h⟩ := exists_of_bind_eq_ok h
  obtain ⟨filter, hfilter, h⟩ := exists_of_bind_eq_ok h
  cases h
  refine ⟨cs, filter, Summary.sortedRows t cs filter r.format, hcs, hfilter, rfl, ?_, ?_, ?_⟩
  · exact Directive.sortRows_perm _ _
  · exact (Directive.pairwise_sortRows _ _).imp fun {a b} => (Directive.isLE_order_iff _ a b).mp
  · rw [← List.take_eq_take_min]
    refine Summary.separates_of_cut (fun a b => (Directive.order_eq_eq_iff _ a b).symm) ?_
      (Summary.rows_table t cs filter _ r.format)
    exact (Directive.pairwise_sortRows _ _).imp fun h => Directive.isLE_order_take _ _ h

/-- Two groups whose only key is a sort key too. -/
theorem Table.summarize_separates_two_groups :
    ∃ out cs rows, (⟨none, [.cells [['b']], .cells [['a']]]⟩ : Table).summarize Script.engine
        { columns := ['$', '1', ';', '^', 'a'], separatorDepth := some 1 } = .ok out ∧
      out.Separates (Directive.alike ((Summary.directives cs).take
        (min 1 (Summary.directives cs).length))) (Summary.visible cs) rows := by
  have hspec : ColumnSpec.readList ['$', '1', ';', '^', 'a'] = .ok
      [{ text := ['$', '1', ';', '^', 'a'], formula := ['$', '1'],
         sort := some ⟨.alphabetic, false, none⟩ }] := rfl
  have htokens : Token.read ['$', '1'] = .ok [⟨.dollar 1, 0⟩] := by
    have hscan : Token.scan '$' ['1'] = .ok (.dollar 1, 1) := by with_unfolding_all rfl
    have hwhite : Text.isWhite '$' = false := by decide
    simp [Token.read, Token.readFrom, hscan, hwhite, Except.map]
  have hread : Expr.read ['$', '1'] = .ok (.name ['$', '1'] false) := by
    rw [Expr.read, if_neg (by decide), htokens]
    simp only [bind, Except.bind, pure, Except.pure, Formula.expr, Formula.term, Formula.unary,
      Formula.power, Formula.primary, Formula.productTail, Formula.sumTail]
    rfl
  obtain ⟨c, hcolumns⟩ : ∃ c, (⟨none, [.cells [['b']], .cells [['a']]]⟩ : Table).outputColumns
      ['$', '1', ';', '^', 'a'] = .ok [c] := by
    rw [Table.outputColumns, hspec]
    simp only [List.mapM_cons, Columns.output, Columns.formula, hread]
    exact ⟨_, rfl⟩
  obtain ⟨out, hsummary⟩ : ∃ out, (⟨none, [.cells [['b']], .cells [['a']]]⟩ : Table).summarize
      Script.engine { columns := ['$', '1', ';', '^', 'a'], separatorDepth := some 1 } = .ok out := by
    rw [Table.summarize, hcolumns]
    exact ⟨_, rfl⟩
  obtain ⟨cs, _, rows, -, -, -, -, -, hseparates⟩ := Table.summarize_separates hsummary
  exact ⟨out, cs, rows, hsummary, hseparates⟩

end Rollup
