import Rollup.Proofs.Formula.Measures

/-! # The extremes of a sequence

The least and the greatest number of a list are found by choosing between the numbers so far and the
next one. A choice goes by the ranks, among which the least and the greatest are the same in any
order, and passes over NaN. It ends at a number of the list, before which none comes, unless there
are no numbers but NaN.
-/

namespace Rollup

namespace Number

/-- `op` keeps what it has beside NaN, and else takes the number whose rank `choose` takes. -/
structure Chooses (op : Float → Float → Float) (choose : Rank → Rank → Rank) : Prop where
  skips {x y : Float} : x.isNaN = false → y.isNaN → op x y = x
  number {x y : Float} : x.isNaN = false → y.isNaN = false → (op x y).isNaN = false
  ranks {x y : Float} : x.isNaN = false → y.isNaN = false →
    rank (op x y) = choose (rank x) (rank y)

/-- A choice that takes the next number when it comes before the one so far, as no NaN does. -/
theorem chooses_of_before {op : Float → Float → Float} {choose : Rank → Rank → Rank}
    (before : Float → Float → Prop) [DecidableRel before]
    (hop : ∀ {x y}, x.isNaN = false → op x y = if before y x then y else x)
    (hnan : ∀ x, ¬before .nan x)
    (hchoose : ∀ {x y}, x.isNaN = false → y.isNaN = false →
      choose (rank x) (rank y) = if before y x then rank y else rank x) : Chooses op choose where
  skips {x y} hx hy := by
    rw [Float.isNaN_eq_decide_eq_nan, decide_eq_true_eq] at hy
    rw [hop hx, hy, if_neg (hnan x)]
  number {x y} hx hy := by
    rw [hop hx]
    split <;> assumption
  ranks {x y} hx hy := by
    rw [hop hx, hchoose hx hy]
    split <;> rfl

theorem chooses_smaller : Chooses smaller min := by
  refine chooses_of_before (· < ·) ?_ (fun x => (not_lt_nan x).2) ?_
  · intro x y hx
    rw [smaller, hx, if_neg Bool.false_ne_true]
  · intro x y hx hy
    simp only [lt_iff_rank_lt hy hx, min_comm (rank x), min_def_lt]

theorem chooses_larger : Chooses larger max := by
  refine chooses_of_before (· > ·) ?_ (fun x => (not_lt_nan x).1) ?_
  · intro x y hx
    rw [larger, hx, if_neg Bool.false_ne_true]
  · intro x y hx hy
    simp only [gt_iff_lt, lt_iff_rank_lt hx hy, max_def_lt]

variable {op : Float → Float → Float} {choose : Rank → Rank → Rank}

theorem Chooses.foldl (h : Chooses op choose) {start : Float} (hstart : start.isNaN = false)
    (xs : List Float) :
    (xs.foldl op start).isNaN = false ∧ rank (xs.foldl op start) =
      ((xs.filter (! ·.isNaN)).map rank).foldl choose (rank start) := by
  induction xs generalizing start with
  | nil => exact ⟨hstart, rfl⟩
  | cons x xs ih =>
    rw [List.foldl_cons]
    cases hx : x.isNaN with
    | true =>
      rw [h.skips hstart hx, List.filter_cons_of_neg (by rw [hx]; decide)]
      exact ih hstart
    | false =>
      rw [List.filter_cons_of_pos (by rw [hx]; rfl), List.map_cons, List.foldl_cons,
        ← h.ranks hstart hx]
      exact ih (h.number hstart hx)

theorem Chooses.alike_foldl [RightCommutative choose] (h : Chooses op choose) {start : Float}
    (hstart : start.isNaN = false) {xs ys : List Float} (hperm : xs.Perm ys) :
    Alike (xs.foldl op start) (ys.foldl op start) := by
  obtain ⟨hx, hrankx⟩ := h.foldl hstart xs
  obtain ⟨hy, hranky⟩ := h.foldl hstart ys
  refine alike_of_rank_eq hx hy ?_
  rw [hrankx, hranky]
  exact ((hperm.filter _).map _).foldl_eq _

theorem Chooses.foldl_of_nan (h : Chooses op choose) {start : Float} (hstart : start.isNaN = false)
    {xs : List Float} (hnan : ∀ x ∈ xs, x.isNaN) : xs.foldl op start = start := by
  induction xs with
  | nil => rfl
  | cons x xs ih =>
    obtain ⟨hx, hxs⟩ := List.forall_mem_cons.mp hnan
    rw [List.foldl_cons, h.skips hstart hx, ih hxs]

/-- From a start behind every number, the choice ends at the foremost number of the list. It stays at
the start only where there is no number. -/
theorem Chooses.foldl_first (h : Chooses op choose) (before : Rank → Rank → Prop)
    [Std.Antisymm before]
    (hchoose : ∀ ranks start, ranks.foldl choose start ∈ start :: ranks ∧
      ∀ r ∈ start :: ranks, before (ranks.foldl choose start) r)
    {start : Float} (hstart : start.isNaN = false) (hlast : ∀ x, before (rank x) (rank start))
    (xs : List Float) :
    (∀ x ∈ xs, x.isNaN = false → before (rank (xs.foldl op start)) (rank x)) ∧
      ((∃ x ∈ xs, Alike (xs.foldl op start) x) ↔ ∃ x ∈ xs, x.isNaN = false) := by
  obtain ⟨hnumber, hrank⟩ := h.foldl hstart xs
  obtain ⟨hmem, hfirst⟩ := hchoose ((xs.filter (! ·.isNaN)).map rank) (rank start)
  rw [← hrank] at hmem hfirst
  have hbefore : ∀ x ∈ xs, x.isNaN = false → before (rank (xs.foldl op start)) (rank x) := by
    intro x hx hxn
    have hmem : x ∈ xs.filter (! ·.isNaN) := List.mem_filter.mpr ⟨hx, by rw [hxn]; rfl⟩
    exact hfirst _ (List.mem_cons_of_mem _ (List.mem_map_of_mem hmem))
  refine ⟨hbefore, ?_, ?_⟩
  · rintro ⟨x, hx, halike⟩
    exact ⟨x, hx, halike.isNaN_eq ▸ hnumber⟩
  · rintro ⟨x, hx, hxn⟩
    rcases List.mem_cons.mp hmem with hmem | hmem
    · -- the choice is still at the rank of the start, which then is that of every number
      have hback : before (rank x) (rank (xs.foldl op start)) := by
        rw [hmem]
        exact hlast x
      exact ⟨x, hx, alike_of_rank_eq hnumber hxn (antisymm (hbefore x hx hxn) hback)⟩
    · obtain ⟨y, hy, hyrank⟩ := List.mem_map.mp hmem
      obtain ⟨hy, hyn⟩ := List.mem_filter.mp hy
      exact ⟨y, hy, alike_of_rank_eq hnumber (by simpa using hyn) hyrank.symm⟩

end Number

namespace Statistics

open Number

variable {xs ys : List Float}

theorem isNaN_infinity : infinity.isNaN = false ∧ (-infinity).isNaN = false := by
  decide +kernel

theorem alike_minimum (h : xs.Perm ys) : Alike (minimum xs) (minimum ys) :=
  chooses_smaller.alike_foldl isNaN_infinity.1 h

theorem alike_maximum (h : xs.Perm ys) : Alike (maximum xs) (maximum ys) :=
  chooses_larger.alike_foldl isNaN_infinity.2 h

theorem rank_infinity : rank infinity = unpackedRank (.infinity .positive) ∧
    rank (-infinity) = unpackedRank (.infinity .negative) := by
  decide +kernel

theorem rank_bounds (x : Float) :
    rank (-infinity) ≤ rank x ∧ rank x ≤ rank infinity := by
  rw [rank_infinity.1, rank_infinity.2]
  exact unpackedRank_bounds _

theorem minimum_first (xs : List Float) :
    (∀ x ∈ xs, x.isNaN = false → minimum xs ≤ x) ∧
      ((∃ x ∈ xs, Alike (minimum xs) x) ↔ ∃ x ∈ xs, x.isNaN = false) := by
  obtain ⟨hfirst, hmem⟩ := chooses_smaller.foldl_first (· ≤ ·)
    (fun _ _ => List.min?_eq_some_iff.mp List.min?_cons') isNaN_infinity.1
    (fun x => (rank_bounds x).2) xs
  refine ⟨?_, hmem⟩
  intro x hx hxn
  have hnumber := (chooses_smaller.foldl isNaN_infinity.1 xs).1
  exact (le_iff_rank_le hnumber hxn).mpr (hfirst x hx hxn)

theorem maximum_first (xs : List Float) :
    (∀ x ∈ xs, x.isNaN = false → x ≤ maximum xs) ∧
      ((∃ x ∈ xs, Alike (maximum xs) x) ↔ ∃ x ∈ xs, x.isNaN = false) := by
  obtain ⟨hfirst, hmem⟩ := chooses_larger.foldl_first (· ≥ ·)
    (fun _ _ => List.max?_eq_some_iff.mp List.max?_cons') isNaN_infinity.2
    (fun x => (rank_bounds x).1) xs
  refine ⟨?_, hmem⟩
  intro x hx hxn
  have hnumber := (chooses_larger.foldl isNaN_infinity.2 xs).1
  exact (le_iff_rank_le hxn hnumber).mpr (hfirst x hx hxn)

end Statistics

namespace Aggregate

open Statistics

/-- The number of values, the extremes and the distance between them are those of every order of
the values, be they numbers, dates, durations, empty or NaN in any mixture. -/
theorem reduce_reordered {a : Aggregate} (ha : a ∈ [count, min, max, span]) {vs vs' : List Value}
    (htext : ∀ v ∈ vs, v.isText = false) (h : vs.Perm vs') :
    (a.reduce vs).Alike (a.reduce vs') := by
  have hxs := h.filterMap Value.toFloat?
  simp only [List.mem_cons, List.not_mem_nil, or_false] at ha
  rcases ha with rfl | rfl | rfl | rfl
  · change (Value.number _).Alike (.number _)
    rw [(h.filter _).length_eq]
    exact .refl _
  · refine alike_reduce (by decide) htext h fun m => ⟨_, _, rfl, rfl, ?_⟩
    exact m.alike_value (alike_minimum hxs)
  · refine alike_reduce (by decide) htext h fun m => ⟨_, _, rfl, rfl, ?_⟩
    exact m.alike_value (alike_maximum hxs)
  · refine alike_reduce (by decide) htext h fun m => ⟨_, _, rfl, rfl, ?_⟩
    exact m.alike_distance ((alike_maximum hxs).sub (alike_minimum hxs))

/-- A date, a blank cell that is kept, nothing, a duration and a mean with its error span 90, from
either end. -/
theorem reduce_reordered_mixed :
    let vs := [.date ⟨Moment.epoch, false⟩, .number .nan, .empty, .duration 90, .uncertain 2 1]
    (span.reduce vs).Alike (span.reduce vs.reverse) ∧
      (span.reduce vs).display = "90".toList ∧ (span.reduce vs.reverse).display = "90".toList := by
  intro vs
  exact ⟨reduce_reordered (by decide) (by decide) (List.reverse_perm vs).symm, by decide +kernel,
    by decide +kernel⟩

/-- The least and the greatest of some numbers bound those that are not NaN. They are among the
numbers unless all are NaN, where the infinities are left from which the choice starts. -/
theorem reduce_extremes {xs : List Float} (hne : xs ≠ []) :
    ∃ low high, min.reduce (xs.map .number) = .number low ∧
      max.reduce (xs.map .number) = .number high ∧
      (∀ x ∈ xs, x.isNaN = false → low ≤ x ∧ x ≤ high) ∧
      ((∃ x ∈ xs, Number.Alike low x) ↔ ∃ x ∈ xs, x.isNaN = false) ∧
      ((∃ x ∈ xs, Number.Alike high x) ↔ ∃ x ∈ xs, x.isNaN = false) ∧
      ((∀ x ∈ xs, x.isNaN) → low = infinity ∧ high = -infinity) := by
  obtain ⟨hlow, hlowMem⟩ := minimum_first xs
  obtain ⟨hhigh, hhighMem⟩ := maximum_first xs
  refine ⟨minimum xs, maximum xs, reduce_number (by decide) hne rfl,
    reduce_number (by decide) hne rfl, ?_, hlowMem, hhighMem, ?_⟩
  · intro x hx hxn
    exact ⟨hlow x hx hxn, hhigh x hx hxn⟩
  · intro hnan
    exact ⟨Number.chooses_smaller.foldl_of_nan isNaN_infinity.1 hnan,
      Number.chooses_larger.foldl_of_nan isNaN_infinity.2 hnan⟩

/-- Two zeros and a blank cell that is kept. -/
theorem reduce_extremes_blank :
    let xs : List Float := [.nan, 0, 3, -0]
    xs ≠ [] ∧ ∃ low high, min.reduce (xs.map .number) = .number low ∧
      max.reduce (xs.map .number) = .number high ∧
      (∀ x ∈ xs, x.isNaN = false → low ≤ x ∧ x ≤ high) ∧
      (∃ x ∈ xs, Number.Alike low x) ∧ ∃ x ∈ xs, Number.Alike high x := by
  intro xs
  have hne : xs ≠ [] := List.cons_ne_nil _ _
  have hnumber : ∃ x ∈ xs, x.isNaN = false := ⟨0, by simp [xs], by decide +kernel⟩
  obtain ⟨low, high, hmin, hmax, hbounds, hlow, hhigh, -⟩ := reduce_extremes hne
  exact ⟨hne, low, high, hmin, hmax, hbounds, hlow.mpr hnumber, hhigh.mpr hnumber⟩

/-- Of a blank cell alone the least number is infinite. -/
theorem reduce_min_of_nan :
    ∃ low, min.reduce [.number .nan] = .number low ∧ ∀ x ∈ [Float.nan], ¬Number.Alike low x := by
  refine ⟨infinity, rfl, ?_⟩
  decide +kernel

end Aggregate

end Rollup
