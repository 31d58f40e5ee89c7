import Rollup.Proofs.Csv.Fields
import Rollup.Proofs.Text.Trim

/-! # Cells that spreadsheets take for formulas

The guard keeps a written cell from being read as a formula, unless white space other than blanks
and tabs stands in front of its sign. The guard stops there, and readers go on.
-/

namespace Rollup.Csv

variable {c : Char} {t cell : Text}

/-! ## Formulas -/

/-- Whether a text is taken for a formula: its first character after white space is a sign, and it is
no number. -/
def isFormula (t : Text) : Bool :=
  (Text.trimStart t).head?.any startsFormula && (Number.read? (Text.trim t)).isNone

/-- White space that the guard looks past. -/
def isIndent (c : Char) : Bool := c = ' ' || c = '\t'

theorem isWhite_of_isIndent (h : isIndent c) : Text.isWhite c := by
  simp only [isIndent, Bool.or_eq_true, decide_eq_true_eq] at h
  rcases h with rfl | rfl <;> decide

theorem not_startsFormula_of_isWhite (h : Text.isWhite c) : ¬ startsFormula c := by
  intro hstarts
  simp only [startsFormula, Bool.or_eq_true, decide_eq_true_eq] at hstarts
  rcases hstarts with ((rfl | rfl) | rfl) | rfl <;> exact absurd h (by decide)

theorem any_head?_dropWhile_isIndent (cell : Text) :
    (cell.dropWhile isIndent).head?.any startsFormula =
      ((Text.trimStart cell).head?.any startsFormula &&
        (cell.takeWhile Text.isWhite).all isIndent) := by
  have hsplit : cell = cell.takeWhile Text.isWhite ++ Text.trimStart cell :=
    List.takeWhile_append_dropWhile.symm
  have hstop : (Text.trimStart cell).dropWhile isIndent = Text.trimStart cell := by
    apply List.dropWhile_eq_self_iff.mpr
    intro hpos hindent
    refine Text.not_isWhite_of_mem_head?_trimStart (t := cell) ?_ (isWhite_of_isIndent hindent)
    exact (List.head?_eq_getElem? ..).trans (List.getElem?_eq_getElem hpos)
  conv_lhs => rw [hsplit, List.dropWhile_append]
  cases hrest : (cell.takeWhile Text.isWhite).dropWhile isIndent with
  | nil =>
    have hall : (cell.takeWhile Text.isWhite).all isIndent := by
      simpa using List.dropWhile_eq_nil_iff.mp hrest
    rw [hall, Bool.and_true, List.isEmpty_nil, if_pos rfl, hstop]
  | cons c u =>
    -- the guard stops at white space, which is no sign
    have hc : c ∈ cell.takeWhile Text.isWhite := by
      apply (List.dropWhile_sublist isIndent).mem
      rw [hrest]
      exact List.mem_cons_self
    have hwhite : Text.isWhite c := List.all_eq_true.mp List.all_takeWhile c hc
    have hindent : (cell.takeWhile Text.isWhite).all isIndent = false := by
      rw [List.all_eq_false]
      have hne : (cell.takeWhile Text.isWhite).dropWhile isIndent ≠ [] := by simp [hrest]
      have hstops := List.head_dropWhile_not isIndent hne
      simp only [hrest, List.head_cons] at hstops
      exact ⟨c, hc, by simp [hstops]⟩
    simpa [hindent] using not_startsFormula_of_isWhite hwhite

/-! ## What the guard catches -/

theorem needsGuard_eq (cell : Text) :
    needsGuard cell = (isFormula cell && (cell.takeWhile Text.isWhite).all isIndent) := by
  have hhead := any_head?_dropWhile_isIndent cell
  unfold isIndent at hhead
  rw [needsGuard, hhead, isFormula, Bool.and_right_comm]
  rfl

theorem isFormula_trim (t : Text) : isFormula (Text.trim t) = isFormula t := by
  rw [isFormula, Text.trimStart_trim, Text.head?_trim, Text.trim_trim, isFormula]

theorem isFormula_apostrophe (t : Text) : isFormula ('\'' :: t) = false := rfl

theorem isFormula_reread (cell : Text) : isFormula (reread cell) = isFormula (guarded cell) := by
  unfold reread
  split
  · rfl
  · exact isFormula_trim _

theorem isFormula_guarded (cell : Text) :
    isFormula (guarded cell) =
      (isFormula cell && !(cell.takeWhile Text.isWhite).all isIndent) := by
  unfold guarded
  split
  case isTrue h =>
    rw [needsGuard_eq, Bool.and_eq_true] at h
    rw [isFormula_apostrophe, h.2, Bool.not_true, Bool.and_false]
  case isFalse h =>
    rw [needsGuard_eq] at h
    cases hcell : isFormula cell <;> simp_all

/-- A written cell is read back as one field, which is taken for a formula only if the cell is and
has white space other than blanks and tabs in front of its sign. -/
theorem readLine?_renderCell_isFormula_iff (cell : Text) :
    ∃ field, readLine? (renderCell cell) = some [field] ∧
      (isFormula field ↔
        isFormula cell ∧ ∃ c ∈ cell.takeWhile Text.isWhite, c ≠ ' ' ∧ c ≠ '\t') := by
  have hread : readLine? (renderLine [cell]) = some [reread cell] := readLine?_renderLine (by simp)
  rw [renderLine_singleton] at hread
  refine ⟨reread cell, hread, ?_⟩
  rw [isFormula_reread, isFormula_guarded]
  simp [isIndent]

/-- The no-break space is white space for the reader and not for the guard. -/
theorem readLine?_renderCell_no_break_space :
    let cell : Text := Char.ofNat 0xA0 :: "=1+1".toList
    renderCell cell = cell ∧ readLine? (renderCell cell) = some ["=1+1".toList] ∧
      isFormula "=1+1".toList := by
  intro cell
  exact ⟨by decide, by decide, by decide⟩

end Rollup.Csv
