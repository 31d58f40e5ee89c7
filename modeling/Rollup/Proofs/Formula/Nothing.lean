import Rollup.Formula.Evaluate
import Rollup.Proofs.Formula.Measures

/-! # Statistics of nothing

A statistic of one sequence is empty where no value of the sequence counts, and nowhere else. A
statistic of two sequences is never empty: without numbers to pair, the call stays written out.
-/

namespace Rollup

open Statistics

/-! ## Values that are not empty -/

namespace Value

theorem isEmpty_iff {v : Value} : v.isEmpty ↔ v = empty := by
  cases v <;> simp [isEmpty]

theorem ofDays_ne_empty (days : Float) : ofDays days ≠ empty := by
  unfold ofDays
  split <;> simp

end Value

namespace Statistics

theorem Measure.value_ne_empty (m : Measure) (x : Float) : m.value x ≠ .empty := by
  cases m with
  | date => exact Value.ofDays_ne_empty x
  | number | duration => simp [Measure.value]

theorem Measure.distance_ne_empty (m : Measure) (x : Float) : m.distance x ≠ .empty := by
  cases m <;> simp [Measure.distance]

end Statistics

/-! ## Reductions -/

namespace Aggregate

variable {a : Aggregate}

theorem reduceNumbers_ne_empty (a : Aggregate) (xs : List Float) (m : Measure) :
    a.reduceNumbers xs m ≠ some .empty := by
  cases a <;> simp [reduceNumbers, reduceNumbersBy, Measure.value_ne_empty, Measure.distance_ne_empty]

theorem reduce_eq_empty_iff (ha : a ∉ [count, list, sum, prod]) {vs : List Value} :
    a.reduce vs = .empty ↔ ∀ v ∈ vs, v = .empty := by
  have hnone : vs.filter (! ·.isEmpty) = [] ↔ ∀ v ∈ vs, v = .empty := by
    simp [List.filter_eq_nil_iff, Value.isEmpty_iff]
  rw [← hnone]
  rw [reduce_def]
  dsimp only
  split
  case h_5 =>
    split_ifs with h
    · simpa using h
    · -- what is not left out is a statistic, or the call with its values
      have hcount : vs.filter (! ·.isEmpty) ≠ [] := by simpa using h
      refine iff_of_false ?_ hcount
      split
      · simp [written]
      · rename_i xs m _
        cases hnumbers : a.reduceNumbers xs m with
        | none => simp [written]
        | some v =>
          rintro rfl
          exact reduceNumbers_ne_empty a xs m hnumbers
  all_goals exact absurd (by decide) ha

theorem reducePair_ne_empty (a : Aggregate) (xs ys : List Value) : a.reducePair xs ys ≠ .empty := by
  unfold reducePair
  split_ifs
  · simp [writtenPair]
  · split
    · rename_i fx _ fy _ _ _
      cases a.reducePairs fx fy <;> simp [writtenPair]
    · simp [writtenPair]

theorem reducePair_of_empty {xs ys : List Value} (hxs : ∀ v ∈ xs, v = .empty) :
    a.reducePair xs ys = a.writtenPair xs ys := by
  unfold reducePair
  split_ifs with h
  · rfl
  · have hnone : numeric? xs = none := by
      obtain ⟨v, vs, rfl⟩ := List.exists_cons_of_ne_nil (not_or.mp h).2
      rw [hxs v (List.mem_cons_self ..)]
      rfl
    rw [hnone]

end Aggregate

/-! ## Calls -/

namespace Function

open Aggregate

variable {a : Aggregate}

theorem apply_reduce (harity : (aggregate a).arity ≠ .exactly 2) (o : Outcome) (rowCount : Nat)
    (angles : AngleMode) :
    (aggregate a).apply [o] rowCount angles = .scalar (a.reduce o.values) := by
  rw [apply_def]
  simp [harity]

theorem apply_reducePair (harity : (aggregate a).arity = .exactly 2) (o o' : Outcome)
    (rowCount : Nat) (angles : AngleMode) :
    (aggregate a).apply [o, o'] rowCount angles = .scalar (a.reducePair o.values o'.values) := by
  rw [apply_def]
  simp [harity]

theorem arity_of_statistic (ha : a ∉ [count, list, sum, prod]) :
    (aggregate a).arity = .exactly 1 ∨ (aggregate a).arity = .exactly 2 := by
  cases a <;> simp_all [arity]

/-- A call of a statistic is empty iff it has one sequence and every value of it is empty. With two
sequences of which every value is empty it is the text of the call. -/
theorem apply_eq_empty_iff (ha : a ∉ [count, list, sum, prod]) {args : List Outcome}
    (hargs : (aggregate a).arity.accepts args.length) (rowCount : Nat) (angles : AngleMode) :
    ((aggregate a).apply args rowCount angles = .scalar .empty ↔
        (aggregate a).arity = .exactly 1 ∧ ∀ o ∈ args, ∀ v ∈ o.values, v = .empty) ∧
      ((aggregate a).arity = .exactly 2 → (∀ o ∈ args, ∀ v ∈ o.values, v = .empty) →
        ∃ xs ys, args.map Outcome.values = [xs, ys] ∧
          (aggregate a).apply args rowCount angles = .scalar (a.writtenPair xs ys)) := by
  rcases arity_of_statistic ha with harity | harity
  · rw [harity, Arity.accepts, decide_eq_true_iff] at hargs
    obtain ⟨o, rfl⟩ := List.length_eq_one_iff.mp hargs
    rw [apply_reduce (by simp [harity]), Outcome.scalar.injEq, reduce_eq_empty_iff ha]
    simp [harity]
  · rw [harity, Arity.accepts, decide_eq_true_iff] at hargs
    obtain ⟨o, o', rfl⟩ := List.length_eq_two.mp hargs
    rw [apply_reducePair harity, Outcome.scalar.injEq, harity]
    refine ⟨iff_of_false (reducePair_ne_empty _ _ _) (by simp), fun _ hempty => ?_⟩
    have hfirst : ∀ v ∈ o.values, v = .empty := hempty o (by simp)
    exact ⟨_, _, rfl, by rw [reducePair_of_empty hfirst]⟩

/-- Two blank cells have no mean, and their correlation is written out. -/
theorem apply_eq_empty_iff_blanks :
    let blanks : List Outcome := [.sequence [.empty, .empty]]
    let pairs : List Outcome := [.sequence [.empty, .empty], .scalar .empty]
    (∀ o ∈ blanks ++ pairs, ∀ v ∈ o.values, v = .empty) ∧
      (aggregate .mean).apply blanks 2 .degrees = .scalar .empty ∧
      (aggregate .correlation).apply pairs 2 .degrees ≠ .scalar .empty := by
  intro blanks pairs
  have hempty : ∀ o ∈ blanks ++ pairs, ∀ v ∈ o.values, v = .empty := by
    simp [blanks, pairs, Outcome.values]
  refine ⟨hempty, ?_, ?_⟩
  · refine (apply_eq_empty_iff (by decide) (by decide) 2 .degrees).1.mpr ⟨rfl, ?_⟩
    exact fun o ho => hempty o (List.mem_append_left _ ho)
  · rw [ne_eq, (apply_eq_empty_iff (by decide) (by decide) 2 .degrees).1]
    simp [arity]

/-- The correlation of no values with no values is a text. -/
theorem apply_correlation_of_nothing :
    let o : Outcome := .sequence []
    (∀ v ∈ o.values, v = .empty) ∧
      (aggregate .correlation).apply [o, o] 0 .degrees =
        .scalar (.text "corr([], [])".toList) ∧
      (aggregate .correlation).apply [o, o] 0 .degrees ≠ .scalar .empty := by
  intro o
  have htext : (aggregate .correlation).apply [o, o] 0 .degrees =
      .scalar (.text "corr([], [])".toList) := rfl
  refine ⟨by simp [o, Outcome.values], htext, ?_⟩
  rw [htext]
  simp

end Function

end Rollup
