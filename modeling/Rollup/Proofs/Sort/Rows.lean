import Rollup.Proofs.Sort.Order

/-! # Sorting rows

Sorting loses and invents no row, puts the rows in the lexicographic order of the directives, and
leaves the rows that no directive tells apart in their order. These three facts fix the result, so
that sorting by several directives is sorting by one after the other, the weakest first.
-/

namespace Rollup.Directive

variable (ds : List Directive)

theorem sortRows_eq_mergeSort (rows : List (List Text)) :
    sortRows ds rows = rows.mergeSort fun a b => (order ds a b).isLE := by
  unfold sortRows
  dsimp only
  rw [List.map_mergeSort (s := fun a b => (order ds a b).isLE), List.map_map]
  · exact congrArg (List.mergeSort · _) (List.map_id _)
  · intro x hx y hy
    obtain ⟨a, -, rfl⟩ := List.mem_map.mp hx
    obtain ⟨b, -, rfl⟩ := List.mem_map.mp hy
    rfl

theorem isLE_order_total (a b : List Text) :
    ((order ds a b).isLE || (order ds b a).isLE) = true := by
  have hswap : order ds b a = (order ds a b).swap := Std.OrientedCmp.eq_swap
  rw [hswap]
  cases order ds a b <;> rfl

theorem sortRows_perm (rows : List (List Text)) : (sortRows ds rows).Perm rows := by
  rw [sortRows_eq_mergeSort]
  exact List.mergeSort_perm rows _

theorem pairwise_sortRows (rows : List (List Text)) :
    (sortRows ds rows).Pairwise fun a b => (order ds a b).isLE := by
  rw [sortRows_eq_mergeSort]
  exact List.pairwise_mergeSort (fun _ _ _ => Std.TransCmp.isLE_trans) (isLE_order_total ds) rows

/-- Rows that are alike already stand in order, so that they stay a sublist, and there are as many
of them before as after. -/
theorem filter_alike_sortRows (rows : List (List Text)) (a : List Text) :
    (sortRows ds rows).filter (alike ds a) = rows.filter (alike ds a) := by
  have hsorted : (rows.filter (alike ds a)).Pairwise fun b c => (order ds b c).isLE := by
    refine List.pairwise_of_forall_mem_list fun b hb c hc => ?_
    have hab := (order_eq_eq_iff ds a b).mpr (List.mem_filter.mp hb).2
    have hac := (order_eq_eq_iff ds a c).mpr (List.mem_filter.mp hc).2
    rw [Std.TransCmp.eq_trans (Std.OrientedCmp.eq_symm hab) hac]
    rfl
  have hsub : (rows.filter (alike ds a)).Sublist (sortRows ds rows) := by
    rw [sortRows_eq_mergeSort]
    exact List.sublist_mergeSort (fun _ _ _ => Std.TransCmp.isLE_trans) (isLE_order_total ds)
      hsorted List.filter_sublist
  have hfilter := hsub.filter (alike ds a)
  rw [List.filter_filter, List.filter_congr fun b _ => Bool.and_self _] at hfilter
  exact (hfilter.eq_of_length ((sortRows_perm ds rows).filter _).length_eq.symm).symm

/-- Sorting is a stable sort by the lexicographic order. -/
theorem stable_sortRows (rows : List (List Text)) :
    (sortRows ds rows).Perm rows ∧ (sortRows ds rows).Pairwise (NotAfter ds) ∧
      ∀ a, (sortRows ds rows).filter (alike ds a) = rows.filter (alike ds a) := by
  refine ⟨sortRows_perm ds rows, ?_, filter_alike_sortRows ds rows⟩
  exact (pairwise_sortRows ds rows).imp fun {a b} => (isLE_order_iff ds a b).mp

/-- No key read as a number or a time is NaN, so that comparing rows by their keys is a total
preorder, namely the lexicographic one; and sorting gives a permutation in that order that keeps
rows which are alike as they stood. -/
theorem sortRows_stable_lexicographic :
    (∀ (k : SortKey) (cell : Text) (x : Float), k.extract cell = .number x → x.isNaN = false) ∧
      Std.TransCmp (fun a b => compareKeys ds (keys ds a) (keys ds b)) ∧
      (∀ a b, (compareKeys ds (keys ds a) (keys ds b)).isLE ↔ NotAfter ds a b) ∧
      ∀ rows, (sortRows ds rows).Perm rows ∧ (sortRows ds rows).Pairwise (NotAfter ds) ∧
        ∀ a, (sortRows ds rows).filter (alike ds a) = rows.filter (alike ds a) :=
  ⟨fun _ _ _ => SortKey.extract_not_isNaN, transCmp_order ds, isLE_order_iff ds, stable_sortRows ds⟩

/-! ## One directive after the other -/

@[simp] theorem alike_self (a : List Text) : alike ds a a := by
  rw [← order_eq_eq_iff]
  exact Std.ReflCmp.compare_self

theorem alike_cons (d : Directive) (a b : List Text) :
    alike (d :: ds) a b = (alike [d] a b && alike ds a b) := by
  simp [alike]

theorem mem_iff_of_filter_alike {rows rows' : List (List Text)}
    (h : ∀ a, rows.filter (alike ds a) = rows'.filter (alike ds a)) (a : List Text) :
    a ∈ rows ↔ a ∈ rows' := by
  have ha : a ∈ rows.filter (alike ds a) ↔ a ∈ rows'.filter (alike ds a) := by rw [h]
  simpa using ha

/-- Rows in order are known from those of each kind, in the order in which these stand. -/
theorem eq_of_filter_alike {rows rows' : List (List Text)}
    (hrows : rows.Pairwise fun a b => (order ds a b).isLE)
    (hrows' : rows'.Pairwise fun a b => (order ds a b).isLE)
    (h : ∀ a, rows.filter (alike ds a) = rows'.filter (alike ds a)) : rows = rows' := by
  induction rows generalizing rows' with
  | nil =>
    refine (List.eq_nil_iff_forall_not_mem.mpr fun a ha => ?_).symm
    simpa using (mem_iff_of_filter_alike ds h a).mpr ha
  | cons a rows ih =>
    cases rows' with
    | nil => simpa using (mem_iff_of_filter_alike ds h a).mp List.mem_cons_self
    | cons b rows' =>
      -- each of the first two rows may stand before the other one, so that they are alike
      have hab : (order ds a b).isLE := by
        rcases List.mem_cons.mp ((mem_iff_of_filter_alike ds h b).mpr List.mem_cons_self) with
          rfl | hb
        · exact Std.ReflCmp.isLE_rfl
        · exact List.rel_of_pairwise_cons hrows hb
      have hba : (order ds b a).isLE := by
        rcases List.mem_cons.mp ((mem_iff_of_filter_alike ds h a).mp List.mem_cons_self) with
          rfl | ha
        · exact Std.ReflCmp.isLE_rfl
        · exact List.rel_of_pairwise_cons hrows' ha
      have halike : alike ds a b :=
        (order_eq_eq_iff ds a b).mp (Std.OrientedCmp.isLE_antisymm hab hba)
      have hhead := h a
      rw [List.filter_cons_of_pos (alike_self ds a), List.filter_cons_of_pos halike] at hhead
      obtain rfl : a = b := (List.cons.inj hhead).1
      rw [ih hrows.of_cons hrows'.of_cons]
      intro c
      have hc := h c
      by_cases hca : alike ds c a
      · rw [List.filter_cons_of_pos hca, List.filter_cons_of_pos hca] at hc
        exact (List.cons.inj hc).2
      · rwa [List.filter_cons_of_neg hca, List.filter_cons_of_neg hca] at hc

variable (d : Directive) (rows : List (List Text))

theorem filter_alike_cons (a : List Text) :
    rows.filter (alike (d :: ds) a) = (rows.filter (alike ds a)).filter (alike [d] a) := by
  rw [List.filter_filter]
  exact List.filter_congr fun b _ => alike_cons ds d a b

/-- Rows that stand in order under the weaker directives keep this order among those that the
strongest one does not tell apart. -/
theorem pairwise_sortRows_sortRows :
    (sortRows [d] (sortRows ds rows)).Pairwise fun a b => (order (d :: ds) a b).isLE := by
  rw [List.pairwise_iff_forall_sublist]
  intro a b hsub
  have hd : (order [d] a b).isLE :=
    List.pairwise_iff_forall_sublist.mp (pairwise_sortRows [d] (sortRows ds rows)) hsub
  have hcons : order (d :: ds) a b = (order [d] a b).then (order ds a b) :=
    order_append [d] ds a b
  rw [hcons]
  cases hab : order [d] a b with
  | lt => rfl
  | gt => simp [hab] at hd
  | eq =>
    have halike : alike [d] a b := (order_eq_eq_iff [d] a b).mp hab
    have hkept := hsub.filter (alike [d] a)
    rw [filter_alike_sortRows, List.filter_cons_of_pos (alike_self [d] a),
      List.filter_cons_of_pos halike, List.filter_nil] at hkept
    exact List.pairwise_iff_forall_sublist.mp (pairwise_sortRows ds rows)
      (hkept.trans List.filter_sublist)

theorem sortRows_cons : sortRows (d :: ds) rows = sortRows [d] (sortRows ds rows) := by
  apply eq_of_filter_alike (d :: ds) (pairwise_sortRows (d :: ds) rows)
    (pairwise_sortRows_sortRows ds d rows)
  intro a
  calc (sortRows (d :: ds) rows).filter (alike (d :: ds) a)
      = (rows.filter (alike ds a)).filter (alike [d] a) := by
        rw [filter_alike_sortRows, filter_alike_cons]
    _ = ((sortRows ds rows).filter (alike ds a)).filter (alike [d] a) := by
        rw [filter_alike_sortRows]
    _ = ((sortRows ds rows).filter (alike [d] a)).filter (alike ds a) := List.filter_comm ..
    _ = ((sortRows [d] (sortRows ds rows)).filter (alike [d] a)).filter (alike ds a) := by
        rw [filter_alike_sortRows]
    _ = (sortRows [d] (sortRows ds rows)).filter (alike (d :: ds) a) := by
        rw [filter_alike_cons ds d, List.filter_comm]

@[simp] theorem sortRows_nil : sortRows [] rows = rows := by
  have hall : alike [] [] = fun _ => true := rfl
  simpa [hall] using filter_alike_sortRows [] rows []

/-- Sorting by all directives at once is sorting by the weaker ones and then by the strongest one,
and so by each of them in turn, the weakest first. Each turn is a stable sort by the key of its
directive alone. -/
theorem sortRows_in_turn :
    sortRows (d :: ds) rows = sortRows [d] (sortRows ds rows) ∧
      sortRows (d :: ds) rows = (d :: ds).foldr (fun d rows => sortRows [d] rows) rows ∧
      ∀ d rows, (sortRows [d] rows).Perm rows ∧ (sortRows [d] rows).Pairwise (NotAfter [d]) ∧
        ∀ a, (sortRows [d] rows).filter (alike [d] a) = rows.filter (alike [d] a) := by
  have hturn : ∀ ds, sortRows ds rows = ds.foldr (fun d rows => sortRows [d] rows) rows := by
    intro ds
    induction ds with
    | nil => simp
    | cons d ds ih => rw [List.foldr_cons, ← ih, sortRows_cons]
  exact ⟨sortRows_cons ds d rows, hturn (d :: ds), fun d => stable_sortRows [d]⟩

/-- The rows `x` and `y` tie under both directives and stay as they stood. Others tie under one. -/
example :
    let up : Directive := ⟨0, .alphabetic, false, none⟩
    let down : Directive := ⟨1, .alphabetic, true, none⟩
    let a : List Text := [['1'], ['a']]
    let b : List Text := [['1'], ['b']]
    let c : List Text := [['2'], ['c']]
    let x : List Text := [['2'], ['b'], ['x']]
    let y : List Text := [['2'], ['b'], ['y']]
    sortRows [down] [x, a, c, y, b] = [c, x, y, b, a] ∧
      sortRows [up] [c, x, y, b, a] = [b, a, c, x, y] ∧
      sortRows [up, down] [x, a, c, y, b] = [b, a, c, x, y] := by
  refine ⟨?_, ?_, ?_⟩
  all_goals cbv

end Rollup.Directive
