import Mathlib.Data.List.Basic
import Rollup.Proofs.Given
import Rollup.Proofs.Summary.Cells

/-! # Formulas over numbers

Where every cell counts as a number and no cell is left out, all columns are equally long and hold
numbers only. Then a formula gives numbers too, or nothing, as long as it calls no function that
writes its values out, measures an error or pairs two sequences. A blank cell is NaN, for which the
sort of a median may fail.
-/

namespace Rollup

open Statistics

/-! ## Values -/

namespace Value

/-- A number, or nothing. -/
def IsNumeric (v : Value) : Prop := v = empty ∨ ∃ n, v = number n

@[simp] theorem isNumeric_empty : IsNumeric empty := .inl rfl

@[simp] theorem isNumeric_number (n : Float) : IsNumeric (number n) := .inr ⟨n, rfl⟩

@[simp] theorem combine_number (op : Operator) (x y : Float) :
    combine op (number x) (number y) = number (op.apply x y) := by
  cases op <;> rfl

theorem combine_empty (op : Operator) (v : Value) : combine op v empty = empty := by
  cases op <;> cases v <;> rfl

theorem IsNumeric.combine {a b : Value} (op : Operator) (ha : a.IsNumeric) (hb : b.IsNumeric) :
    (Value.combine op a b).IsNumeric := by
  obtain rfl | ⟨x, rfl⟩ := ha
  · simp [Value.combine]
  obtain rfl | ⟨y, rfl⟩ := hb
  · simp [combine_empty]
  · simp

theorem IsNumeric.negate {v : Value} (h : v.IsNumeric) : v.negate.IsNumeric := by
  obtain rfl | ⟨n, rfl⟩ := h <;> simp [Value.negate]

theorem IsNumeric.applyTo {v : Value} (f : MathFunction) (angles : AngleMode) (h : v.IsNumeric) :
    (f.applyTo angles v).IsNumeric := by
  obtain rfl | ⟨n, rfl⟩ := h <;> simp [MathFunction.applyTo]

/-- Without the empty values only numbers are left. -/
theorem exists_filter_eq_map_number {vs : List Value} (h : ∀ v ∈ vs, v.IsNumeric) :
    ∃ xs : List Float, vs.filter (!·.isEmpty) = xs.map number := by
  induction vs with
  | nil => exact ⟨[], rfl⟩
  | cons v vs ih =>
    obtain ⟨hv, hvs⟩ := List.forall_mem_cons.mp h
    obtain ⟨xs, hxs⟩ := ih hvs
    obtain rfl | ⟨n, rfl⟩ := hv
    · exact ⟨xs, by rw [List.filter_cons_of_neg (by simp [isEmpty]), hxs]⟩
    · exact ⟨n :: xs, by rw [List.filter_cons_of_pos (by simp [isEmpty]), hxs, List.map_cons]⟩

end Value

/-! ## Sorting -/

namespace Statistics

/-- Some list of up to `k` numbers is not sorted. -/
def FailsUpTo (sort : List Float → Option (List Float)) (k : ℕ) : Prop :=
  ∃ xs, xs.length ≤ k ∧ sort xs = none

end Statistics

section

variable {sort : List Float → Option (List Float)}

/-! ## Reductions -/

/-- The functions that make no number of numbers: `list` writes its values out, `meane` adds an
error to the mean, and the others want two sequences. -/
def Function.unlikeNumbers : List Function :=
  [.aggregate .list, .aggregate .meanError, .aggregate .covariance,
    .aggregate .populationCovariance, .aggregate .correlation]

namespace Aggregate

theorem foldl_combine_number (op : Operator) (x : Float) (xs : List Float) :
    (xs.map Value.number).foldl (Value.combine op) (.number x) =
      .number (xs.foldl op.apply x) := by
  induction xs generalizing x with
  | nil => rfl
  | cons y xs ih => simp [ih]

theorem isNumeric_fold (op : Operator) (start : Float) (xs : List Float) :
    (fold op start (xs.map Value.number)).IsNumeric := by
  cases xs with
  | nil => simp [fold]
  | cons x xs => simp [fold, foldl_combine_number]

theorem sharedMeasure_number (xs : List Float) :
    sharedMeasure (xs.map Value.number) = .number := by
  cases xs with
  | nil => rfl
  | cons x xs => simp [sharedMeasure, Measure.of]

theorem numeric?_number (xs : List Float) :
    numeric? (xs.map Value.number) = some (xs, .number) := by
  have hnumbers : (xs.map Value.number).mapM Value.toFloat? = some xs := by
    induction xs with
    | nil => rfl
    | cons x xs ih => simp [ih, Value.toFloat?]
  rw [numeric?, hnumbers, sharedMeasure_number]
  rfl

theorem holdsOr_reduceBy {a : Aggregate} (ha : .aggregate a ∉ Function.unlikeNumbers)
    {vs : List Value} (h : ∀ v ∈ vs, v.IsNumeric) {k : ℕ} (hk : vs.length ≤ k) :
    HoldsOr (FailsUpTo sort k) Value.IsNumeric (a.reduceBy sort vs) := by
  obtain ⟨xs, hxs⟩ := Value.exists_filter_eq_map_number h
  have hlength : xs.length ≤ k := by
    have hfilter := List.length_filter_le (!Value.isEmpty ·) vs
    rw [hxs, List.length_map] at hfilter
    omega
  unfold reduceBy
  rw [hxs]
  cases a with
  | count => exact .pure (Value.isNumeric_number _)
  | sum => exact .pure (isNumeric_fold _ _ xs)
  | prod => exact .pure (isNumeric_fold _ _ xs)
  | list | meanError | covariance | populationCovariance | correlation =>
    exact absurd (by decide) ha
  | mean | harmonicMean | geometricMean | min | max | variance | populationVariance
  | deviation | populationDeviation | span =>
    -- plain numbers have no unit, so a statistic of them is a number
    dsimp only
    rw [numeric?_number]
    split
    · exact .pure Value.isNumeric_empty
    · exact .pure (Value.isNumeric_number _)
  | median =>
    dsimp only
    rw [numeric?_number]
    split
    · exact .pure Value.isNumeric_empty
    · have hsort : HoldsOr (FailsUpTo sort k) (fun _ => True) (sort xs) :=
        ⟨fun _ _ => trivial, fun hnone => ⟨xs, hlength, hnone⟩⟩
      have hmiddle : HoldsOr (FailsUpTo sort k) (fun v? => ∀ v : Value, (v?.getD v).IsNumeric)
          (median.reduceNumbersBy sort xs .number) :=
        hsort.bind fun _ _ => .pure fun _ => Value.isNumeric_number _
      exact hmiddle.bind fun v? hv? => .pure (hv? _)

end Aggregate

/-! ## Outcomes -/

namespace Outcome

/-- One numeric value, or one for each of `n` rows. -/
def IsNumeric (n : ℕ) : Outcome → Prop
  | scalar v => v.IsNumeric
  | sequence vs => vs.length = n ∧ ∀ v ∈ vs, v.IsNumeric

variable {n : ℕ} {o : Outcome}

theorem IsNumeric.map {f : Value → Value} (hf : ∀ v, v.IsNumeric → (f v).IsNumeric)
    (h : o.IsNumeric n) : (o.map f).IsNumeric n := by
  cases o with
  | scalar v => exact hf v h
  | sequence vs =>
    obtain ⟨hlength, hvs⟩ := h
    refine ⟨by simp [hlength], ?_⟩
    intro w hw
    obtain ⟨v, hv, rfl⟩ := List.mem_map.mp hw
    exact hf v (hvs v hv)

theorem IsNumeric.values (h : o.IsNumeric n) :
    (∀ v ∈ o.values, v.IsNumeric) ∧ o.values.length ≤ max n 1 := by
  cases o with
  | scalar v =>
    obtain rfl | ⟨x, rfl⟩ := h
    · simp [Outcome.values]
    · simp [Outcome.values, Nat.le_max_right]
  | sequence vs => exact ⟨h.2, h.1 ▸ Nat.le_max_left _ _⟩

/-- No two sequences differ in length, so that every combination goes value by value. -/
theorem IsNumeric.combine {o' : Outcome} (op : Operator) (h : o.IsNumeric n)
    (h' : o'.IsNumeric n) : (Outcome.combine op o o').IsNumeric n := by
  cases o with
  | scalar a =>
    have ha : a.IsNumeric := h
    cases o' with
    | scalar b => exact ha.combine op h'
    | sequence ys => exact h'.map fun _ hy => ha.combine op hy
  | sequence xs =>
    cases o' with
    | scalar b =>
      have hb : b.IsNumeric := h'
      exact h.map fun _ hx => hx.combine op hb
    | sequence ys =>
      obtain ⟨hx, hxs⟩ := h
      obtain ⟨hy, hys⟩ := h'
      rw [Outcome.combine, if_pos (hx.trans hy.symm)]
      refine ⟨by simp [hx, hy], ?_⟩
      intro v hv
      obtain ⟨i, hi, rfl⟩ := List.getElem_of_mem hv
      rw [List.getElem_zipWith]
      exact (hxs _ (List.getElem_mem _)).combine op (hys _ (List.getElem_mem _))

end Outcome

/-- A call keeps to numbers whatever the number of its arguments. -/
theorem Function.holdsOr_applyBy {f : Function} (hf : f ∉ unlikeNumbers) {n : ℕ}
    {args : List Outcome} (h : ∀ o ∈ args, o.IsNumeric n) (rowCount : ℕ) (angles : AngleMode) :
    HoldsOr (FailsUpTo sort (max n 1)) (Outcome.IsNumeric n)
      (f.applyBy sort args rowCount angles) := by
  cases f with
  | math f =>
    cases args with
    | nil => exact .pure Value.isNumeric_empty
    | cons o args => exact .pure ((h o (by simp)).map fun _ => Value.IsNumeric.applyTo f angles)
  | aggregate a =>
    have harity : (aggregate a).arity ≠ .exactly 2 := by
      intro h2
      unfold arity at h2
      split at h2 <;> simp_all [unlikeNumbers]
    obtain ⟨hvalues, hlength⟩ : (∀ v ∈ (args.head?.map Outcome.values).getD [], v.IsNumeric) ∧
        ((args.head?.map Outcome.values).getD []).length ≤ max n 1 := by
      cases args with
      | nil => simp
      | cons o args => exact (h o (by simp)).values
    have hreduce : HoldsOr (FailsUpTo sort (max n 1)) _ (a.reduceBy sort _) :=
      Aggregate.holdsOr_reduceBy hf hvalues hlength
    unfold Function.applyBy
    split
    case h_3 => exact .pure (Value.isNumeric_number _)
    case h_4 heq _ =>
      cases heq
      rw [if_neg harity]
      exact hreduce.map fun _ hv => hv
    all_goals contradiction

/-! ## Trees -/

namespace Expr

mutual

/-- A resolved tree, without names, whose calls are of allowed functions only. -/
def CallsOnly (allowed : Function → Prop) : Expr → Prop
  | number _ => True
  | name _ _ => False
  | column _ => True
  | neg e => e.CallsOnly allowed
  | binary _ lhs rhs => lhs.CallsOnly allowed ∧ rhs.CallsOnly allowed
  | call f args => allowed f ∧ AllCallOnly allowed args

def AllCallOnly (allowed : Function → Prop) : List Expr → Prop
  | [] => True
  | e :: es => e.CallsOnly allowed ∧ AllCallOnly allowed es

end

section

variable {s : Sequences} (angles : AngleMode)

mutual

theorem holdsOr_evaluateBy (hs : ∀ p, (Outcome.sequence (s.column p)).IsNumeric s.rowCount) :
    ∀ e : Expr, e.CallsOnly (· ∉ Function.unlikeNumbers) →
      HoldsOr (FailsUpTo sort (max s.rowCount 1)) (Outcome.IsNumeric s.rowCount)
        (e.evaluateBy sort s angles)
  | number n, _ => .pure (Value.isNumeric_number n)
  | column p, _ => .pure (hs p)
  | neg e, h => by
    rw [evaluateBy]
    exact (holdsOr_evaluateBy hs e h).bind fun _ ho => .pure (ho.map fun _ => Value.IsNumeric.negate)
  | binary op lhs rhs, h => by
    obtain ⟨hlhs, hrhs⟩ := h
    rw [evaluateBy]
    exact (holdsOr_evaluateBy hs lhs hlhs).bind fun _ ho =>
      (holdsOr_evaluateBy hs rhs hrhs).bind fun _ ho' => .pure (ho.combine op ho')
  | call f args, h => by
    obtain ⟨hf, hargs⟩ := h
    rw [evaluateBy]
    exact (holdsOr_evaluateAllBy hs args hargs).bind fun _ hos =>
      Function.holdsOr_applyBy hf hos _ angles

theorem holdsOr_evaluateAllBy (hs : ∀ p, (Outcome.sequence (s.column p)).IsNumeric s.rowCount) :
    ∀ es : List Expr, AllCallOnly (· ∉ Function.unlikeNumbers) es →
      HoldsOr (FailsUpTo sort (max s.rowCount 1)) (∀ o ∈ ·, Outcome.IsNumeric s.rowCount o)
        (evaluateAllBy sort s angles es)
  | [], _ => .pure (by simp)
  | e :: es, h => by
    obtain ⟨he, hes⟩ := h
    rw [evaluateAllBy]
    exact (holdsOr_evaluateBy hs e he).bind fun _ ho =>
      (holdsOr_evaluateAllBy hs es hes).bind fun _ hos => .pure (List.forall_mem_cons.mpr ⟨ho, hos⟩)

end

end

end Expr

end

end Rollup
