import Rollup.Proofs.Summary.Reading
import Rollup.Script.Evaluate

/-! # Specs in another order

Directives of different strengths are applied in the order of their strengths, wherever their columns
stand. So the same specs in another order give the same summary with its columns in that order.
-/

namespace Rollup

/-! ## Directives by strength -/

namespace Directive

theorem precedes_trans {a b c : Directive} (hab : precedes a b) (hbc : precedes b c) :
    precedes a c := by
  unfold precedes at *
  cases ha : a.strength <;> cases hb : b.strength <;> cases hc : c.strength <;> simp_all <;> omega

theorem precedes_total (a b : Directive) : (precedes a b || precedes b a) = true := by
  unfold precedes
  cases ha : a.strength <;> cases hb : b.strength <;> simp <;> omega

theorem strength_eq_of_precedes {a b : Directive} (hab : precedes a b) (hba : precedes b a) :
    a.strength = b.strength := by
  unfold precedes at *
  cases ha : a.strength <;> cases hb : b.strength <;> simp_all
  omega

theorem pairwise_inOrder (ds : List Directive) :
    (inOrder ds).Pairwise fun a b => precedes a b :=
  @List.pairwise_mergeSort _ precedes (fun _ _ _ => precedes_trans) precedes_total ds

/-- A directive without its place: what it sorts by is given by the column itself. -/
def unplaced (cs : List OutputColumn) (d : Directive) : Option OutputColumn × Directive :=
  (cs[d.column]?, { d with column := 0 })

theorem precedes_unplaced {a b : Directive} (h : precedes a b) :
    precedes { a with column := 0 } { b with column := 0 } := by
  unfold precedes at *
  cases ha : a.strength <;> cases hb : b.strength <;> simp_all
  omega

theorem rowCompare_eq_of_unplaced {defaults : FormatDefaults} {cs cs' : List OutputColumn}
    {d d' : Directive} (h : unplaced cs d = unplaced cs' d') (a b : List BodyRow) :
    d.rowCompare (Summary.rowOf defaults cs a) (Summary.rowOf defaults cs b) =
      d'.rowCompare (Summary.rowOf defaults cs' a) (Summary.rowOf defaults cs' b) := by
  obtain ⟨hcolumn, hd⟩ := Prod.mk.inj h
  obtain ⟨-, hkey, hdescending, -⟩ := Directive.mk.inj hd
  have hkeyOf : ∀ members, d.keyOf (Summary.rowOf defaults cs members) =
      d'.keyOf (Summary.rowOf defaults cs' members) := by
    intro members
    simp only [keyOf, Summary.rowOf, List.getD_eq_getElem?_getD, List.getElem?_map, hcolumn, hkey]
  rw [rowCompare, rowCompare, hkeyOf, hkeyOf, Directive.compare, Directive.compare, hdescending]

end Directive

namespace Summary

open Directive (unplaced precedes)

variable {cs cs' : List OutputColumn}

/-- No two columns are sorted with the same strength. -/
def StrengthsDiffer (cs : List OutputColumn) : Prop :=
  (cs.filterMap fun c => c.spec.sort.map SortSegment.strength).Nodup

theorem perm_unplaced (cs : List OutputColumn) :
    ((directives cs).map (unplaced cs)).Perm
      (cs.filterMap fun c => c.spec.sort.map fun s =>
        (some c, ⟨0, s.key, s.descending, s.strength⟩)) := by
  refine ((List.mergeSort_perm _ _).map _).trans (List.Perm.of_eq ?_)
  rw [List.map_filterMap]
  have hplace : ∀ p ∈ cs.zipIdx, Option.map (unplaced cs)
      (p.1.spec.sort.map fun s => ⟨p.2, s.key, s.descending, s.strength⟩) =
      p.1.spec.sort.map fun s => (some p.1, ⟨0, s.key, s.descending, s.strength⟩) := by
    intro p hp
    have hget : cs[p.2]? = some p.1 := List.mem_zipIdx_iff_getElem?.mp hp
    cases hsort : p.1.spec.sort <;> simp [unplaced, hget]
  rw [List.filterMap_congr hplace]
  conv_rhs => rw [← List.zipIdx_map_fst 0 cs, List.filterMap_map]
  rfl

theorem map_unplaced_directives (h : cs'.Perm cs) (hstrengths : StrengthsDiffer cs) :
    (directives cs).map (unplaced cs) = (directives cs').map (unplaced cs') := by
  -- Without their places both are the same directives, each list sorted by strength, and sorting
  -- has only one outcome where no strengths are equal.
  have hperm := (perm_unplaced cs).trans
    ((h.symm.filterMap _).trans (perm_unplaced cs').symm)
  have hpairwise : ∀ cs : List OutputColumn,
      ((directives cs).map (unplaced cs)).Pairwise fun x y => precedes x.2 y.2 := fun cs =>
    List.pairwise_map.mpr ((Directive.pairwise_inOrder _).imp Directive.precedes_unplaced)
  have hnodup : (((directives cs).map (unplaced cs)).map fun x => x.2.strength).Nodup := by
    refine (((perm_unplaced cs).map _).nodup_iff).mpr ?_
    rw [List.map_filterMap]
    simp only [Option.map_map]
    exact hstrengths
  refine hperm.eq_of_pairwise (fun x y hx hy hxy hyx => ?_) (hpairwise cs) (hpairwise cs')
  exact List.inj_on_of_nodup_map hnodup hx (hperm.mem_iff.mpr hy)
    (Directive.strength_eq_of_precedes hxy hyx)

theorem sortsAlike_of_perm (defaults : FormatDefaults) (h : cs'.Perm cs)
    (hstrengths : StrengthsDiffer cs) : SortsAlike defaults cs cs' where
  keys p := by rw [mem_keyPositions, mem_keyPositions, (h.filterMap _).mem_iff]
  directives := by
    have hforall := List.forall₂_eq_eq_eq ▸ map_unplaced_directives h hstrengths
    rw [List.forall₂_map_left_iff, List.forall₂_map_right_iff] at hforall
    exact hforall.imp fun _ _ => Directive.rowCompare_eq_of_unplaced

end Summary

/-- The same specs in another order, no two of them sorted with the same strength, give the same
summary or none. Its columns are picked in the order of the specs, row by row, and rows and
separators stand as before. -/
theorem Table.summarize_reordered {E : Filter.Engine} {r : SummaryRequest} {columns' : Text}
    {specs specs' : List Text}
    (hspecs : ColumnSpec.splitList r.columns = .ok specs)
    (hspecs' : ColumnSpec.splitList columns' = .ok specs') (hperm : specs'.Perm specs)
    (hstrengths : (specs.filterMap ColumnSpec.strength?).Nodup) (t : Table) :
    Agree
      (fun out out' => ∃ order n, out.HasWidth n ∧ order.Perm (List.range n) ∧
        specs'.filter ColumnSpec.isShown = pick order (specs.filter ColumnSpec.isShown) ∧
        out' = out.onLines (pick order))
      (t.summarize E r) (t.summarize E { r with columns := columns' }) := by
  have hsplit : Agree (fun texts texts' => texts = specs ∧ texts' = specs')
      (ColumnSpec.splitList r.columns) (ColumnSpec.splitList columns') := by
    rw [hspecs, hspecs']
    exact .ok ⟨rfl, rfl⟩
  have hcolumns : Agree (fun cs cs' => cs'.Perm cs ∧ specs.mapM t.columns.read = .ok cs ∧
      specs'.mapM t.columns.read = .ok cs') (t.outputColumns r.columns)
      (t.outputColumns columns') := by
    refine Table.agree_outputColumns hsplit ?_ ?_
    · rintro _ _ ⟨rfl, rfl⟩
      rw [← List.length_eq_zero_iff, ← List.length_eq_zero_iff, hperm.length_eq]
    · rintro _ _ ⟨rfl, rfl⟩
      exact (agree_mapM_of_perm hperm).results
  refine Table.agree_summarize hcolumns ?_
  rintro cs cs' filter ⟨hcs, hok, hok'⟩
  have hdiffer : Summary.StrengthsDiffer cs := by
    rwa [Summary.StrengthsDiffer, ← Columns.filterMap_strength? hok]
  obtain ⟨order, horder, hpick⟩ := exists_pick_of_perm (hcs.filter fun c => !c.spec.invisible)
  refine ⟨order, _, Summary.hasWidth_table .., horder, ?_, ?_⟩
  · rw [Columns.filter_isShown hok, Columns.filter_isShown hok', ← map_pick]
    exact congrArg _ hpick
  · refine (Summary.sortsAlike_of_perm r.format hcs hdiffer).table_eq (fun item => ?_) ..
    rw [← map_pick]
    exact congrArg _ hpick

/-- A key that is sorted, and a column that is sorted before it. -/
theorem Table.summarize_reordered_two_specs :
    ∃ out order n, (⟨none, [.cells [['b']], .cells [['a']]]⟩ : Table).summarize Script.engine
        { columns := "$1;^a k;L;^n1".toList } = .ok out ∧
      out.HasWidth n ∧ order.Perm (List.range n) ∧
      (⟨none, [.cells [['b']], .cells [['a']]]⟩ : Table).summarize Script.engine
        { columns := "k;L;^n1 $1;^a".toList } = .ok (out.onLines (pick order)) := by
  have hkey : ColumnSpec.read "$1;^a".toList = .ok
      { text := "$1;^a".toList, formula := ['$', '1'], sort := some ⟨.alphabetic, false, none⟩ } :=
    rfl
  have hliteral : ColumnSpec.read "k;L;^n1".toList = .ok
      { text := "k;L;^n1".toList, formula := ['k'], format := { literal := true },
        sort := some ⟨.numeric, false, some 1⟩ } := by with_unfolding_all rfl
  have hstrengths : (["$1;^a".toList, "k;L;^n1".toList].filterMap ColumnSpec.strength?).Nodup := by
    have hkeyStrength : ColumnSpec.strength? "$1;^a".toList = some none := by
      rw [ColumnSpec.strength?, hkey]
      rfl
    have hliteralStrength : ColumnSpec.strength? "k;L;^n1".toList = some (some 1) := by
      rw [ColumnSpec.strength?, hliteral]
      rfl
    rw [List.filterMap_cons_some hkeyStrength, List.filterMap_cons_some hliteralStrength]
    decide
  obtain ⟨out, hout⟩ : ∃ out, (⟨none, [.cells [['b']], .cells [['a']]]⟩ : Table).summarize
      Script.engine { columns := "$1;^a k;L;^n1".toList } = .ok out := by
    have hsplit : ColumnSpec.splitList "$1;^a k;L;^n1".toList =
        .ok ["$1;^a".toList, "k;L;^n1".toList] := rfl
    refine Table.exists_summarize hsplit (List.cons_ne_nil _ _) ?_ rfl
    exact List.forall_mem_cons.mpr
      ⟨⟨_, Columns.read_first_column (by decide) hkey rfl rfl⟩,
        List.forall_mem_singleton.mpr ⟨_, Columns.read_literal hliteral rfl⟩⟩
  have hagree := @Table.summarize_reordered Script.engine { columns := "$1;^a k;L;^n1".toList }
    "k;L;^n1 $1;^a".toList ["$1;^a".toList, "k;L;^n1".toList] ["k;L;^n1".toList, "$1;^a".toList]
    rfl rfl (.swap _ _ _) hstrengths ⟨none, [.cells [['b']], .cells [['a']]]⟩
  obtain ⟨_, hout', order, n, hwidth, horder, -, rfl⟩ := hagree.exists_right hout
  exact ⟨out, order, n, hout, hwidth, horder, hout'⟩

end Rollup
