import Mathlib.Data.List.Forall2
import Rollup.Proofs.Summary.Cells

/-! # Formulas row by row

Where blank cells are kept, every column has one value for each row. A formula of literals, columns,
operators and mathematical functions then gives one value for each row too, and it is the value that
the formula has for that row alone.
-/

namespace Rollup

/-! ## Formulas -/

/-- A formula that works value by value. A mathematical function has one argument. -/
inductive Expr.Elementwise : Expr → Prop
  | number (n : Float) : Elementwise (number n)
  | column (position : ℕ) : Elementwise (column position)
  | neg {e : Expr} (h : Elementwise e) : Elementwise (neg e)
  | binary {lhs rhs : Expr} (op : Operator) (hl : Elementwise lhs) (hr : Elementwise rhs) :
      Elementwise (binary op lhs rhs)
  | call {e : Expr} (f : MathFunction) (h : Elementwise e) : Elementwise (call (.math f) [e])

/-! ## Outcomes -/

namespace Outcome

/-- What a formula gives for some rows together and for each row alone: the same single value, when
it mentions no column, and otherwise a value for each row. -/
inductive Rowwise {α : Type} (rows : List α) : (plain : Bool) → Outcome → (α → Outcome) → Prop
  | scalar (v : Value) : Rowwise rows true (scalar v) fun _ => scalar v
  | sequence (f : α → Value) : Rowwise rows false (sequence (rows.map f)) fun r => sequence [f r]

namespace Rowwise

variable {α : Type} {rows : List α} {plain plain' : Bool} {o o' : Outcome} {single single' : α → Outcome}

theorem map (h : Rowwise rows plain o single) (f : Value → Value) :
    Rowwise rows plain (o.map f) fun r => (single r).map f := by
  cases h with
  | scalar v => exact .scalar (f v)
  | sequence g =>
    rw [Outcome.map, List.map_map]
    exact .sequence (f ∘ g)

/-- Values of one row meet, because all sequences are as long as there are rows. -/
theorem combine (op : Operator) (h : Rowwise rows plain o single)
    (h' : Rowwise rows plain' o' single') :
    Rowwise rows (plain && plain') (Outcome.combine op o o') fun r =>
      Outcome.combine op (single r) (single' r) := by
  cases h with
  | scalar a =>
    cases h' with
    | scalar b => exact .scalar _
    | sequence g => exact (Rowwise.sequence g).map (Value.combine op a)
  | sequence f =>
    cases h' with
    | scalar b => exact (Rowwise.sequence f).map (Value.combine op · b)
    | sequence g =>
      have hpairs : List.zipWith (Value.combine op) (rows.map f) (rows.map g) =
          rows.map fun r => Value.combine op (f r) (g r) := by
        rw [List.zipWith_map, List.zipWith_self]
      rw [Outcome.combine, if_pos (by simp), hpairs]
      exact .sequence _

/-- A formula with a column gives a value for each row. -/
theorem exists_sequence (h : Rowwise rows false o single) : ∃ vs, o = .sequence vs ∧
    List.Forall₂ (fun r v => single r = .sequence [v]) rows vs := by
  cases h with
  | sequence f =>
    refine ⟨rows.map f, rfl, ?_⟩
    rw [List.forall₂_map_right_iff, List.forall₂_same]
    exact fun _ _ => rfl

end Rowwise

end Outcome

/-! ## Evaluation -/

theorem Expr.Elementwise.rowwise {α : Type} {rows : List α} {s : Sequences} {single : α → Sequences}
    {value : ℕ → α → Value} (angles : AngleMode) (hs : ∀ p, s.column p = rows.map (value p))
    (hsingle : ∀ r p, (single r).column p = [value p r]) {e : Expr} (he : e.Elementwise) :
    Outcome.Rowwise rows e.columns.isEmpty (e.evaluate s angles) fun r =>
      e.evaluate (single r) angles := by
  induction he with
  | number n => exact .scalar _
  | column p =>
    simp only [Expr.evaluate_column, hs, hsingle]
    exact .sequence (value p)
  | neg _ ih => exact ih.map Value.negate
  | @binary lhs rhs op _ _ ihl ihr =>
    have hcolumns : (Expr.binary op lhs rhs).columns.isEmpty =
        (lhs.columns.isEmpty && rhs.columns.isEmpty) := by
      rw [columns, Bool.eq_iff_iff]
      simp
    rw [hcolumns]
    exact ihl.combine op ihr
  | @call e f _ ih =>
    have hcolumns : (Expr.call (.math f) [e]).columns = e.columns := List.append_nil _
    rw [hcolumns]
    exact ih.map (f.applyTo angles)

/-! ## Groups of rows -/

namespace Group

/-- What a formula gives for a group when its columns are read after others. -/
def outcome (g : Group) (mode : CellMode) (angles : AngleMode) (seen : ReadColumns) (e : Expr) :
    Outcome :=
  e.evaluate ((seen.add g mode e.positions).sequences g.rows.length mode) angles

/-- A formula with a column that works value by value gives one value for each row of a group, and
each is the only value that the formula has for the group of this row alone. -/
theorem outcome_rowwise {g : Group} {seen : ReadColumns} (hseen : seen.Faithful g) {mode : CellMode}
    (hkeep : mode.keepEmpty = true) (angles : AngleMode) {e : Expr} (he : e.Elementwise)
    (hcolumn : e.columns ≠ []) :
    ∃ vs, g.outcome mode angles seen e = .sequence vs ∧
      List.Forall₂ (fun r v => outcome ⟨g.key, [r]⟩ mode angles [] e = .sequence [v]) g.rows vs := by
  have hrows := he.rowwise angles (column_sequencesOf_of_keepEmpty hkeep g.rows) fun r =>
    column_sequencesOf_of_keepEmpty hkeep [r]
  rw [List.isEmpty_eq_false_iff.mpr hcolumn] at hrows
  obtain ⟨vs, hvs, heach⟩ := hrows.exists_sequence
  refine ⟨vs, (evaluate_add hseen ..).trans hvs, ?_⟩
  exact heach.imp fun r v hv => (evaluate_add ReadColumns.faithful_nil ..).trans hv

/-- Cells of several kinds and a missing one in `abs(-$1) - 2 * $2`, after column 1 was read in
another mode. -/
theorem outcome_rowwise_missing_cell :
    let g : Group := ⟨[], [⟨["x y".toList, "1:30".toList], 0⟩, ⟨["-3".toList], 0⟩, ⟨[[], "z".toList], 1⟩]⟩
    let seen : ReadColumns := ReadColumns.add g ⟨true, true⟩ [1] []
    let e : Expr := .binary .sub (.call (.math .abs) [.neg (.column 1)])
      (.binary .mul (.number 2) (.column 2))
    seen.Faithful g ∧ e.Elementwise ∧ e.columns ≠ [] ∧
      (∃ vs, g.outcome ⟨false, true⟩ .degrees seen e = .sequence vs ∧
        List.Forall₂ (fun r v => outcome ⟨[], [r]⟩ ⟨false, true⟩ .degrees [] e = .sequence [v])
          g.rows vs) ∧
      (g.outcome ⟨false, true⟩ .degrees seen e).print {} {} =
        "[(abs(-(x y))) - 03:00:00, #NAN!, #NAN! - (2 * z)]".toList ∧
      g.rows.map (fun r => (outcome ⟨[], [r]⟩ ⟨false, true⟩ .degrees [] e).print {} {}) =
        ["[(abs(-(x y))) - 03:00:00]".toList, "[#NAN!]".toList, "[#NAN! - (2 * z)]".toList] := by
  intro g seen e
  have hseen : seen.Faithful g := ReadColumns.faithful_nil.add [1]
  have he : e.Elementwise := .binary _ (.call _ (.neg (.column 1))) (.binary _ (.number 2) (.column 2))
  have hcolumn : e.columns ≠ [] := List.cons_ne_nil _ _
  exact ⟨hseen, he, hcolumn, outcome_rowwise hseen rfl .degrees he hcolumn, by decide +kernel,
    by decide +kernel⟩

end Group

end Rollup
