import Rollup.Formula.Statistics
import Rollup.Proofs.Double.Equality

/-! # Statistics in any order

A statistic reads the numbers of its values and the measure that they share. Neither gains or loses
anything by another order of the values, so that a statistic is as independent of the order as what
it computes from the numbers.
-/

namespace Rollup

/-! ## Alike values -/

namespace Value

/-- The same kind, with numbers that are equal or both NaN. -/
inductive Alike : Value → Value → Prop
  | empty : Alike empty empty
  | number {x y : Float} (h : Number.Alike x y) : Alike (number x) (number y)
  | date (stamp : Timestamp) : Alike (date stamp) (date stamp)
  | duration {x y : Float} (h : Number.Alike x y) : Alike (duration x) (duration y)
  | uncertain {x x' y y' : Float} (h : Number.Alike x y) (h' : Number.Alike x' y') :
    Alike (uncertain x x') (uncertain y y')
  | text (t : Text) : Alike (text t) (text t)

theorem ofDays_zero :
    ofDays 0 = date ⟨Moment.epoch, false⟩ ∧ ofDays (-0) = date ⟨Moment.epoch, false⟩ := by
  have hshift : Moment.epoch.shiftSeconds? (0 * Moment.secondsPerDay) = some Moment.epoch ∧
      Moment.epoch.shiftSeconds? (-0 * Moment.secondsPerDay) = some Moment.epoch := by
    decide +kernel
  simp only [ofDays, hshift]
  exact ⟨rfl, rfl⟩

theorem Alike.refl (v : Value) : v.Alike v := by
  cases v with
  | empty => exact .empty
  | number n => exact .number (.refl n)
  | date stamp => exact .date stamp
  | duration s => exact .duration (.refl s)
  | uncertain mean err => exact .uncertain (.refl mean) (.refl err)
  | text t => exact .text t

/-- Both zeros are the first day. -/
theorem alike_ofDays {x y : Float} (h : Number.Alike x y) : (ofDays x).Alike (ofDays y) := by
  obtain ⟨hzero, hnegative⟩ := ofDays_zero
  rcases Number.alike_iff.mp h with rfl | ⟨rfl, rfl⟩ | ⟨rfl, rfl⟩
  · exact .refl _
  · rw [hzero, hnegative]
    exact .date _
  · rw [hzero, hnegative]
    exact .date _

end Value

namespace Statistics

theorem Measure.alike_value (m : Measure) {x y : Float} (h : Number.Alike x y) :
    (m.value x).Alike (m.value y) := by
  cases m with
  | number => exact .number h
  | date => exact Value.alike_ofDays h
  | duration => exact .duration h

theorem Measure.alike_distance (m : Measure) {x y : Float} (h : Number.Alike x y) :
    (m.distance x).Alike (m.distance y) := by
  cases m with
  | number => exact .number h
  | date => exact .number h
  | duration => exact .duration h

/-! ## The shared measure -/

variable {vs vs' : List Value}

/-- One pass over the values finds the measure: it starts with that of the first value and falls
back to plain numbers, for good, at the first value that measures something else. -/
theorem sharedMeasure_cons (v : Value) (vs : List Value) :
    sharedMeasure (v :: vs) =
      vs.foldl (fun m w => if Measure.of w = m then m else .number) (Measure.of v) := by
  rw [sharedMeasure]
  generalize Measure.of v = m
  induction vs generalizing m with
  | nil => rfl
  | cons w vs ih =>
    rw [List.foldl_cons, ← ih]
    by_cases hw : Measure.of w = m
    · simp [hw]
    · simp [hw]

theorem sharedMeasure_of_forall {m : Measure} (hne : vs ≠ []) (h : ∀ v ∈ vs, Measure.of v = m) :
    sharedMeasure vs = m := by
  cases vs with
  | nil => exact absurd rfl hne
  | cons v vs =>
    obtain ⟨hv, hvs⟩ := List.forall_mem_cons.mp h
    rw [sharedMeasure, if_pos (by simpa [hv] using hvs), hv]

theorem sharedMeasure_of_not_forall (h : ¬∃ m, ∀ v ∈ vs, Measure.of v = m) :
    sharedMeasure vs = .number := by
  cases vs with
  | nil => rfl
  | cons v vs =>
    rw [sharedMeasure, if_neg]
    intro hall
    exact h ⟨Measure.of v, by simpa using hall⟩

theorem sharedMeasure_perm (h : vs.Perm vs') : sharedMeasure vs = sharedMeasure vs' := by
  have hmem (m : Measure) : (∀ v ∈ vs, Measure.of v = m) ↔ ∀ v ∈ vs', Measure.of v = m := by
    simp only [h.mem_iff]
  by_cases hshared : ∃ m, ∀ v ∈ vs, Measure.of v = m
  · obtain ⟨m, hm⟩ := hshared
    by_cases hne : vs = []
    · subst hne
      rw [h.nil_eq]
    · have hne' : vs' ≠ [] := by
        rintro rfl
        exact hne h.eq_nil
      rw [sharedMeasure_of_forall hne hm, sharedMeasure_of_forall hne' ((hmem m).mp hm)]
  · have hshared' : ¬∃ m, ∀ v ∈ vs', Measure.of v = m := by simpa only [hmem] using hshared
    rw [sharedMeasure_of_not_forall hshared, sharedMeasure_of_not_forall hshared']

/-! ## The numbers -/

/-- The values that count are those that are not empty, and without texts all of them are numbers. -/
theorem numeric?_of_not_isText (h : ∀ v ∈ vs, v.isText = false) :
    numeric? (vs.filter (! ·.isEmpty)) =
      some (vs.filterMap Value.toFloat?, sharedMeasure (vs.filter (! ·.isEmpty))) := by
  have hnumbers : (vs.filter (! ·.isEmpty)).mapM Value.toFloat? =
      some (vs.filterMap Value.toFloat?) := by
    induction vs with
    | nil => rfl
    | cons v vs ih =>
      obtain ⟨hv, hvs⟩ := List.forall_mem_cons.mp h
      cases v with
      | empty => exact ih hvs
      | text t => cases hv
      | number | date | duration | uncertain =>
        rw [List.filter_cons_of_pos rfl, List.mapM_cons, ih hvs]
        rfl
  rw [numeric?, hnumbers]
  rfl

end Statistics

namespace Aggregate

open Statistics

variable {a : Aggregate} {vs vs' : List Value}

theorem reduce_eq (ha : a ∉ [count, list, sum, prod]) (htext : ∀ v ∈ vs, v.isText = false) :
    a.reduce vs =
      if vs.filter (! ·.isEmpty) = [] then .empty
      else
        (a.reduceNumbers (vs.filterMap Value.toFloat?)
          (sharedMeasure (vs.filter (! ·.isEmpty)))).getD (a.written (vs.filter (! ·.isEmpty))) := by
  rw [reduce_def]
  dsimp only
  split
  case h_5 =>
    rw [numeric?_of_not_isText htext]
    simp only [List.isEmpty_iff]
  all_goals exact absurd (by decide) ha

/-- A statistic of plain numbers is that of the numbers. -/
theorem reduce_number {a : Aggregate} (ha : a ∉ [count, list, sum, prod]) {xs : List Float}
    (hne : xs ≠ []) {v : Value} (hv : a.reduceNumbers xs .number = some v) :
    a.reduce (xs.map .number) = v := by
  have hcount : (xs.map Value.number).filter (! ·.isEmpty) = xs.map .number := by
    simp [Value.isEmpty]
  have hmeasure : sharedMeasure (xs.map Value.number) = .number := by
    apply sharedMeasure_of_forall <;> simp [hne, Measure.of]
  have hnumbers : (xs.map Value.number).filterMap Value.toFloat? = xs := by
    simp [List.filterMap_map, Function.comp_def, Value.toFloat?]
  have htext : ∀ v ∈ xs.map Value.number, v.isText = false := by simp [Value.isText]
  rw [reduce_eq ha htext, hcount, hmeasure, hnumbers, if_neg (by simpa using hne), hv]
  rfl

/-- A statistic that makes alike values of the numbers in either order makes alike values of the
sequences. -/
theorem alike_reduce (ha : a ∉ [count, list, sum, prod]) (htext : ∀ v ∈ vs, v.isText = false)
    (h : vs.Perm vs')
    (hnumbers : ∀ m, ∃ v v', a.reduceNumbers (vs.filterMap Value.toFloat?) m = some v ∧
      a.reduceNumbers (vs'.filterMap Value.toFloat?) m = some v' ∧ v.Alike v') :
    (a.reduce vs).Alike (a.reduce vs') := by
  have htext' : ∀ v ∈ vs', v.isText = false := fun v hv => htext v (h.mem_iff.mpr hv)
  have hcount := h.filter (! ·.isEmpty)
  have hnil : vs.filter (! ·.isEmpty) = [] ↔ vs'.filter (! ·.isEmpty) = [] := by
    simp only [← List.length_eq_zero_iff, hcount.length_eq]
  rw [reduce_eq ha htext, reduce_eq ha htext', ← sharedMeasure_perm hcount]
  simp only [hnil]
  split
  · exact .empty
  · obtain ⟨v, v', hv, hv', halike⟩ := hnumbers (sharedMeasure (vs.filter (! ·.isEmpty)))
    rw [hv, hv']
    exact halike

end Aggregate

end Rollup
