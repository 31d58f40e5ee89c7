import Mathlib.Data.List.Basic
import Rollup.Proofs.Formula.References
import Rollup.Summary.Cells

/-! # Cells on their own

A column is read when the first formula mentions it, and kept for the formulas after it. What is kept
is what reading gives, and a formula reads no columns but those that it mentions. So a cell is the
one that its column has when there are no others.
-/

namespace Rollup

/-! ## What a formula reads -/

namespace Expr

section

variable {s s' : Sequences} (angles : AngleMode)

mutual

/-- A formula has the same value wherever the columns that it mentions are the same. -/
theorem evaluate_congr (hcount : s.rowCount = s'.rowCount) : ∀ e : Expr,
    (∀ p ∈ e.columns, s.column p = s'.column p) → e.evaluate s angles = e.evaluate s' angles
  | number _, _ => rfl
  | name _ _, _ => rfl
  | column p, h => congrArg Outcome.sequence (h p (by simp [columns]))
  | neg e, h => by rw [evaluate_neg, evaluate_neg, evaluate_congr hcount e h]
  | binary op lhs rhs, h => by
    have hlhs := evaluate_congr hcount lhs fun p hp => h p (List.mem_append_left _ hp)
    have hrhs := evaluate_congr hcount rhs fun p hp => h p (List.mem_append_right _ hp)
    rw [evaluate_binary, evaluate_binary, hlhs, hrhs]
  | call f args, h => by
    rw [evaluate_call, evaluate_call, evaluateAll_congr hcount args h, hcount]

theorem evaluateAll_congr (hcount : s.rowCount = s'.rowCount) : ∀ es : List Expr,
    (∀ p ∈ columnsOfAll es, s.column p = s'.column p) → evaluateAll s angles es = evaluateAll s' angles es
  | [], _ => rfl
  | e :: es, h => by
    have hhead := evaluate_congr hcount e fun p hp => h p (List.mem_append_left _ hp)
    have htail := evaluateAll_congr hcount es fun p hp => h p (List.mem_append_right _ hp)
    rw [evaluateAll_cons, evaluateAll_cons, hhead, htail]

end

end

end Expr

/-! ## What is kept -/

namespace ReadColumns

/-- Every column is kept as the group has it. -/
def Faithful (g : Group) (seen : ReadColumns) : Prop :=
  ∀ position mode values, seen.lookup (position, mode) = some values →
    values = g.values mode position

variable {g : Group} {mode : CellMode} {seen : ReadColumns}

theorem faithful_nil : Faithful g [] := by
  intro _ _ _ h
  cases h

theorem lookup_addColumn (h : Faithful g seen) (position : ℕ) (other : ℕ × CellMode) :
    (addColumn g mode seen position).lookup other =
      if other = (position, mode) then some (g.values mode position) else seen.lookup other := by
  unfold addColumn
  split
  case isTrue hseen =>
    split
    case isTrue hother =>
      obtain ⟨values, hvalues⟩ := Option.isSome_iff_exists.mp hseen
      rw [hother, hvalues, h _ _ _ hvalues]
    case isFalse => rfl
  case isFalse =>
    rw [List.lookup_cons]
    by_cases hother : other = (position, mode)
    · rw [beq_iff_eq.mpr hother, if_pos hother]
    · rw [beq_false_of_ne hother, if_neg hother]

theorem Faithful.addColumn (h : Faithful g seen) (position : ℕ) :
    Faithful g (addColumn g mode seen position) := by
  intro p m values hvalues
  rw [lookup_addColumn h] at hvalues
  split at hvalues
  case isTrue heq =>
    cases heq
    exact (Option.some.inj hvalues).symm
  case isFalse => exact h p m values hvalues

theorem Faithful.add (h : Faithful g seen) (positions : List ℕ) :
    Faithful g (seen.add g mode positions) := by
  induction positions generalizing seen with
  | nil => exact h
  | cons p ps ih => exact ih (h.addColumn p)

/-- Whatever was read before, the positions that are read now are found. -/
theorem lookup_add (mode : CellMode) (h : Faithful g seen) {positions : List ℕ} {position : ℕ}
    (hp : position ∈ positions ∨ seen.lookup (position, mode) = some (g.values mode position)) :
    (seen.add g mode positions).lookup (position, mode) = some (g.values mode position) := by
  induction positions generalizing seen with
  | nil => exact hp.resolve_left List.not_mem_nil
  | cons p ps ih =>
    refine ih (h.addColumn p) ?_
    rw [lookup_addColumn h, List.mem_cons] at *
    rcases hp with (rfl | hp) | hp
    · exact .inr (if_pos rfl)
    · exact .inl hp
    · refine .inr ?_
      split
      case isTrue heq => cases heq; rfl
      case isFalse => exact hp

end ReadColumns

/-! ## Cells -/

/-- The columns of some rows as one mode reads them: at every position the values of the cells, row
by row, without the empty ones. -/
def sequencesOf (rows : List BodyRow) (mode : CellMode) : Sequences where
  rowCount := rows.length
  column position :=
    (rows.map fun r => Value.ofCell mode (r.cell position)).filter fun v => !v.isEmpty

theorem Value.not_isEmpty_ofCell {mode : CellMode} (hkeep : mode.keepEmpty = true) (cell : Text) :
    (ofCell mode cell).isEmpty = false := by
  unfold ofCell
  rw [hkeep]
  by_cases hblank : Text.trim cell = []
  · simp only [hblank, if_true]
    cases mode.numbersOnly <;> rfl
  · simp only [hblank, if_false]
    unfold recognize
    repeat' split
    all_goals rfl

theorem column_sequencesOf_of_keepEmpty {mode : CellMode} (hkeep : mode.keepEmpty = true)
    (rows : List BodyRow) (p : ℕ) :
    (sequencesOf rows mode).column p = rows.map fun r => Value.ofCell mode (r.cell p) := by
  apply List.filter_eq_self.mpr
  intro v hv
  obtain ⟨r, -, rfl⟩ := List.mem_map.mp hv
  rw [Value.not_isEmpty_ofCell hkeep]
  rfl

/-- The text of a formula that is evaluated on its own. -/
def formulaOf (defaults : FormatDefaults) (rows : List BodyRow) (format : CellFormat) (e : Expr) :
    Text :=
  (e.evaluate (sequencesOf rows format.cellMode) (format.angles defaults)).print format defaults

/-- The cell of a column on its own, for a group with these rows. -/
def cellOf (defaults : FormatDefaults) (rows : List BodyRow) (c : OutputColumn) : Text :=
  match c.kind with
  | .key position => (rows.head?.map (·.cell position)).getD []
  | .list position => Text.joinWith ", ".toList (rows.map (·.cell position))
  | .literal => c.spec.formula
  | .formula e => formulaOf defaults rows c.spec.format e

namespace Group

variable {g : Group} {seen : ReadColumns} (defaults : FormatDefaults)

/-- Whatever was read before, a formula finds the columns that it mentions as the group has them. -/
theorem evaluate_add (h : seen.Faithful g) (mode : CellMode) (angles : AngleMode) (e : Expr) :
    e.evaluate ((seen.add g mode e.positions).sequences g.rows.length mode) angles =
      e.evaluate (sequencesOf g.rows mode) angles := by
  refine Expr.evaluate_congr _ ?_ e fun p hp => ?_
  · rfl
  · have hread : p ∈ e.positions := Expr.mem_positions.mpr hp
    exact congrArg (Option.getD · []) (ReadColumns.lookup_add mode h (.inl hread))

theorem formulaText_add (h : seen.Faithful g) (format : CellFormat) (e : Expr) :
    g.formulaText defaults (seen.add g format.cellMode e.positions) format e =
      formulaOf defaults g.rows format e :=
  congrArg (Outcome.print format defaults) (evaluate_add h _ _ e)

theorem cell_fst (h : seen.Faithful g) (c : OutputColumn) :
    (g.cell defaults seen c).1 = cellOf defaults g.rows c := by
  unfold cell cellOf
  cases hkind : c.kind with
  | key position => rfl
  | list position => rfl
  | literal => rfl
  | formula e =>
    have hpositions : c.positions = e.positions := by rw [OutputColumn.positions, hkind]; rfl
    rw [hpositions]
    exact formulaText_add defaults h c.spec.format e

theorem faithful_cell_snd (h : seen.Faithful g) (c : OutputColumn) :
    (g.cell defaults seen c).2.Faithful g := by
  unfold cell
  cases c.kind with
  | key position => exact h
  | list position => exact h
  | literal => exact h
  | formula e => exact h.add c.positions

theorem cellsFrom_eq (h : seen.Faithful g) (cs : List OutputColumn) :
    g.cellsFrom defaults seen cs = cs.map (cellOf defaults g.rows) := by
  induction cs generalizing seen with
  | nil => rfl
  | cons c cs ih =>
    rw [List.map_cons, ← cell_fst defaults h, ← ih (faithful_cell_snd defaults h c)]
    rfl

theorem cells_eq_map (g : Group) (cs : List OutputColumn) :
    g.cells defaults cs = cs.map (cellOf defaults g.rows) :=
  cellsFrom_eq defaults ReadColumns.faithful_nil cs

end Group

end Rollup
