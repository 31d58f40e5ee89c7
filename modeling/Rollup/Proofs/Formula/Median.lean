import Rollup.Proofs.Formula.Measures

/-! # The median in any order

The sort takes NaN for equal to every number. Without NaN numbers compare as their ranks do, the
sorted list is the one list of the numbers in that order, up to the signs of zeros, and so the
median is the same for every order of the values. With NaN, and two numbers that differ, the
comparison is no order at all.
-/

namespace Rollup

open Number

namespace Statistics

/-! ## The comparison -/

/-- How the sort compares numbers. What does not compare counts as equal. -/
def sortOrder (x y : Float) : Ordering := (order? x y).getD .eq

theorem sortOrder_eq_lt_iff {x y : Float} : sortOrder x y = .lt ↔ x < y := by
  unfold sortOrder order?
  split_ifs <;> simp_all

/-- Insertion asks for nothing else than the comparison. -/
theorem insertDescending_cons (x y : Float) (ys : List Float) :
    insertDescending x (y :: ys) =
      if sortOrder x y = .lt then y :: insertDescending x ys else x :: y :: ys := by
  simp only [insertDescending, sortOrder_eq_lt_iff]

theorem sortOrder_eq {x y : Float} (hx : x.isNaN = false) (hy : y.isNaN = false) :
    sortOrder x y = compare (rank x) (rank y) := by
  rw [sortOrder, order?_eq hx hy]
  rfl

theorem sortOrder_nan (x : Float) : sortOrder x .nan = .eq ∧ sortOrder .nan x = .eq := by
  obtain ⟨h, h'⟩ := not_lt_nan x
  simp [sortOrder, order?, h, h']

theorem sortOrder_eq_eq_iff {x y : Float} :
    sortOrder x y = .eq ↔ (x.isNaN = false → y.isNaN = false → x == y) := by
  cases hx : x.isNaN with
  | true =>
    rw [Float.isNaN_eq_decide_eq_nan, decide_eq_true_eq] at hx
    simp [hx, sortOrder_nan]
  | false =>
    cases hy : y.isNaN with
    | true =>
      rw [Float.isNaN_eq_decide_eq_nan, decide_eq_true_eq] at hy
      simp [hy, sortOrder_nan]
    | false =>
      rw [sortOrder_eq hx hy, compare_eq_iff_eq, ← beq_iff_rank_eq hx hy]
      exact ⟨fun h _ _ => h, fun h => h rfl rfl⟩

/-- The comparison is a total preorder on a list unless there are NaN and two different numbers. -/
theorem transCmp_sortOrder_iff {xs : List Float} :
    Std.TransCmp (fun x y : {n // n ∈ xs} => sortOrder x y) ↔
      (∀ x ∈ xs, x.isNaN = false) ∨
        ∀ x ∈ xs, ∀ y ∈ xs, x.isNaN = false → y.isNaN = false → x == y := by
  constructor
  · intro h
    by_cases hnan : .nan ∈ xs
    · refine .inr fun x hx y hy => sortOrder_eq_eq_iff.mp ?_
      -- both are equal to NaN, which leaves no room between them
      exact h.eq_trans (a := ⟨x, hx⟩) (b := ⟨_, hnan⟩) (c := ⟨y, hy⟩) (sortOrder_nan x).1
        (sortOrder_nan y).2
    · refine .inl fun x hx => ?_
      rw [Float.isNaN_eq_decide_eq_nan, decide_eq_false_iff_not]
      rintro rfl
      exact hnan hx
  · rintro (hnan | hsame)
    · have hcompare : (fun x y : {n // n ∈ xs} => sortOrder x y) = compareOn (rank ·.val) := by
        funext x y
        exact sortOrder_eq (hnan x x.2) (hnan y y.2)
      rw [hcompare]
      infer_instance
    · have heq : (fun x y : {n // n ∈ xs} => sortOrder x y) = fun _ _ => .eq := by
        funext x y
        exact sortOrder_eq_eq_iff.mpr (hsame x x.2 y y.2)
      rw [heq]
      exact { eq_swap := rfl, isLE_trans := fun _ _ => rfl }

/-! ## The sort -/

theorem insertDescending_perm (x : Float) (ys : List Float) :
    (insertDescending x ys).Perm (x :: ys) := by
  induction ys with
  | nil => rfl
  | cons y ys ih =>
    rw [insertDescending]
    split
    · exact (ih.cons y).trans (.swap x y ys)
    · rfl

/-- Insertion into a list in descending order keeps it so. -/
theorem insertDescending_ordered {x : Float} {ys : List Float} (hx : x.isNaN = false)
    (hys : ∀ y ∈ ys, y.isNaN = false) (h : ys.Pairwise fun y z => rank z ≤ rank y) :
    (insertDescending x ys).Pairwise fun y z => rank z ≤ rank y := by
  induction ys with
  | nil => exact List.pairwise_singleton _ _
  | cons y ys ih =>
    obtain ⟨hy, hys⟩ := List.forall_mem_cons.mp hys
    obtain ⟨hfirst, hrest⟩ := List.pairwise_cons.mp h
    rw [insertDescending_cons, sortOrder_eq hx hy]
    split
    case isTrue hlt =>
      rw [compare_lt_iff_lt] at hlt
      refine List.pairwise_cons.mpr ⟨?_, ih hys hrest⟩
      intro z hz
      rcases List.mem_cons.mp ((insertDescending_perm x ys).mem_iff.mp hz) with rfl | hz
      · exact hlt.le
      · exact hfirst z hz
    case isFalse hle =>
      rw [compare_lt_iff_lt, not_lt] at hle
      refine List.pairwise_cons.mpr ⟨?_, h⟩
      intro z hz
      rcases List.mem_cons.mp hz with rfl | hz
      · exact hle
      · exact (hfirst z hz).trans hle

theorem foldl_insertDescending_perm (xs ys : List Float) :
    (xs.foldl (fun ys x => insertDescending x ys) ys).Perm (xs ++ ys) := by
  induction xs generalizing ys with
  | nil => rfl
  | cons x xs ih =>
    exact (ih _).trans (((insertDescending_perm x ys).append_left xs).trans List.perm_middle)

theorem foldl_insertDescending_ordered {xs ys : List Float} (hxs : ∀ x ∈ xs, x.isNaN = false)
    (hys : ∀ y ∈ ys, y.isNaN = false) (h : ys.Pairwise fun y z => rank z ≤ rank y) :
    (xs.foldl (fun ys x => insertDescending x ys) ys).Pairwise fun y z => rank z ≤ rank y := by
  induction xs generalizing ys with
  | nil => exact h
  | cons x xs ih =>
    obtain ⟨hx, hxs⟩ := List.forall_mem_cons.mp hxs
    refine ih hxs ?_ (insertDescending_ordered hx hys h)
    intro z hz
    rcases List.mem_cons.mp ((insertDescending_perm x ys).mem_iff.mp hz) with rfl | hz
    · exact hx
    · exact hys z hz

theorem sorted_perm (xs : List Float) : (sorted xs).Perm xs := by
  have h := (List.reverse_perm _).trans (foldl_insertDescending_perm xs [])
  rwa [List.append_nil] at h

theorem sorted_ordered {xs : List Float} (hxs : ∀ x ∈ xs, x.isNaN = false) :
    (sorted xs).Pairwise fun x y => rank x ≤ rank y :=
  List.pairwise_reverse.mpr (foldl_insertDescending_ordered hxs (by simp) .nil)

/-! ## The middle -/

/-- The order leaves nothing open but the signs of zeros. -/
theorem alike_of_ordered {ys zs : List Float} (hnan : ∀ y ∈ ys, y.isNaN = false)
    (hys : ys.Pairwise fun x y => rank x ≤ rank y) (hzs : zs.Pairwise fun x y => rank x ≤ rank y)
    (h : ys.Perm zs) (i : ℕ) : Alike (ys.getD i 0) (zs.getD i 0) := by
  have hranks : ys.map rank = zs.map rank :=
    (h.map rank).eq_of_pairwise (fun _ _ _ _ => le_antisymm) (List.pairwise_map.mpr hys)
      (List.pairwise_map.mpr hzs)
  by_cases hi : i < ys.length
  · have hi' : i < zs.length := h.length_eq ▸ hi
    have hrank : rank ys[i] = rank zs[i] := by
      have := congrArg (·[i]?) hranks
      simpa [hi, hi'] using this
    rw [List.getD_eq_getElem _ _ hi, List.getD_eq_getElem _ _ hi']
    have hz : zs[i] ∈ ys := h.mem_iff.mpr (List.getElem_mem hi')
    exact alike_of_rank_eq (hnan _ (List.getElem_mem hi)) (hnan _ hz) hrank
  · have hi' : ¬i < zs.length := h.length_eq ▸ hi
    rw [List.getD_eq_default _ _ (not_lt.mp hi), List.getD_eq_default _ _ (not_lt.mp hi')]

theorem alike_median {xs xs' : List Float} (hnan : ∀ x ∈ xs, x.isNaN = false) (h : xs.Perm xs') :
    Alike (median xs) (median xs') := by
  have hnan' : ∀ x ∈ xs', x.isNaN = false := fun x hx => hnan x (h.mem_iff.mpr hx)
  have hsorted : (sorted xs).Perm (sorted xs') :=
    (sorted_perm xs).trans (h.trans (sorted_perm xs').symm)
  have hget := alike_of_ordered (fun x hx => hnan x ((sorted_perm xs).mem_iff.mp hx))
    (sorted_ordered hnan) (sorted_ordered hnan') hsorted
  unfold median middle
  dsimp only
  rw [hsorted.length_eq]
  split
  · exact hget _
  · exact ((hget _).add (hget _)).div_right 2

end Statistics

namespace Aggregate

open Statistics

/-- The comparison by which the median sorts is a total preorder unless there are NaN and two
different numbers, and without NaN the median is that of every order of the values. -/
theorem reduce_median_reordered {vs : List Value} (htext : ∀ v ∈ vs, v.isText = false) :
    let xs := vs.filterMap Value.toFloat?
    (Std.TransCmp (fun x y : {n // n ∈ xs} => sortOrder x y) ↔
      (∀ x ∈ xs, x.isNaN = false) ∨
        ∀ x ∈ xs, ∀ y ∈ xs, x.isNaN = false → y.isNaN = false → x == y) ∧
    ((∀ x ∈ xs, x.isNaN = false) →
      ∀ vs', vs.Perm vs' → (median.reduce vs).Alike (median.reduce vs')) := by
  intro xs
  refine ⟨transCmp_sortOrder_iff, ?_⟩
  intro hnan vs' h
  refine alike_reduce (by decide) htext h fun m => ⟨_, _, rfl, rfl, ?_⟩
  exact m.alike_value (alike_median hnan (h.filterMap Value.toFloat?))

/-- Two durations, a date and a mean with its error. -/
theorem reduce_median_reordered_mixed :
    let vs := [.duration 90, .date ⟨Moment.epoch, false⟩, .duration (-90), .uncertain 2 1]
    (median.reduce vs).Alike (median.reduce vs.reverse) := by
  intro vs
  have htext : ∀ v ∈ vs, v.isText = false := by decide
  refine (reduce_median_reordered htext).2 ?_ _ (List.reverse_perm vs).symm
  decide +kernel

/-- NaN keeps its place, and the numbers on its two sides apart. -/
theorem reduce_median_with_nan :
    let vs : List Value := [.number .nan, .number 1, .number 3]
    let vs' : List Value := [.number 1, .number 3, .number .nan]
    vs.Perm vs' ∧ ¬(median.reduce vs).Alike (median.reduce vs') ∧
      ¬Std.TransCmp (fun x y : {n // n ∈ vs.filterMap Value.toFloat?} => sortOrder x y) := by
  intro vs vs'
  refine ⟨(List.perm_append_singleton _ [Value.number 1, .number 3]).symm, ?_, ?_⟩
  · have hfirst : median.reduce vs = .number (Statistics.median [.nan, 1, 3]) := rfl
    have hlast : median.reduce vs' = .number (Statistics.median [1, 3, .nan]) := rfl
    rw [hfirst, hlast]
    intro h
    cases h with
    | number h =>
      revert h
      decide +kernel
  · rw [transCmp_sortOrder_iff]
    decide +kernel

end Aggregate

end Rollup
