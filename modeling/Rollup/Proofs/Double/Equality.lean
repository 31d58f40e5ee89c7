import Rollup.Proofs.Double.Order

/-! # Doubles that are equal up to the sign of zero

The two zeros are equal numbers, and NaN is not even equal to itself. Doubles are alike when they
are equal or both NaN, which is to say that they are the same or both zeros. Sums, differences and
quotients of alike doubles are alike, unless a zero divides.
-/

namespace Rollup.Number

open Float.Model
open Float.Model.UnpackedFloat (Sign)

/-- Equal numbers, or both NaN. -/
def Alike (x y : Float) : Prop := x == y ∨ (x.isNaN ∧ y.isNaN)

instance (x y : Float) : Decidable (Alike x y) := inferInstanceAs (Decidable (_ ∨ _))

variable {x x' y y' z : Float}

theorem alike_iff : Alike x y ↔ x = y ∨ (x = 0 ∧ y = -0) ∨ (x = -0 ∧ y = 0) := by
  have hzero : (0 : Float) ≠ .nan ∧ (-0 : Float) ≠ .nan := by decide +kernel
  simp only [Alike, Float.beq_iff_ne_nan_and_eq, Float.isNaN_eq_decide_eq_nan, decide_eq_true_eq]
  grind

@[refl] theorem Alike.refl (x : Float) : Alike x x := alike_iff.mpr (.inl rfl)

theorem Alike.symm (h : Alike x y) : Alike y x := by
  rw [alike_iff] at h ⊢
  grind

theorem Alike.trans (h : Alike x y) (h' : Alike y z) : Alike x z := by
  rw [alike_iff] at h h' ⊢
  grind

theorem Alike.isNaN_eq (h : Alike x y) : x.isNaN = y.isNaN := by
  have hzero : (0 : Float).isNaN = (-0 : Float).isNaN := by decide +kernel
  rcases alike_iff.mp h with rfl | ⟨rfl, rfl⟩ | ⟨rfl, rfl⟩
  · rfl
  · exact hzero
  · exact hzero.symm

theorem alike_of_rank_eq (hx : x.isNaN = false) (hy : y.isNaN = false) (h : rank x = rank y) :
    Alike x y :=
  .inl ((beq_iff_rank_eq hx hy).mpr h)

theorem alike_zeros (s s' : Sign) : Alike (assemble (.zero s)) (assemble (.zero s')) := by
  cases s <;> cases s' <;> exact .inl rfl

/-- NaN is neither less nor greater than any number. -/
theorem not_lt_nan (x : Float) : ¬x < .nan ∧ ¬.nan < x := by
  have hnan : view .nan = .notANumber := by with_unfolding_all rfl
  change ¬decide (((view x).compare (view .nan) == some .lt) = true) = true ∧
    ¬decide (((view .nan).compare (view x) == some .lt) = true) = true
  rw [hnan]
  cases view x <;> simp [UnpackedFloat.compare]

/-! ## Operations -/

theorem sub_eq (x y : Float) :
    x - y = assemble (UnpackedFloat.sub Format.binary64 (view x) (view y)) := rfl

theorem view_zero : view 0 = .zero .positive := by with_unfolding_all rfl

theorem view_neg_zero : view (-0) = .zero .negative := by with_unfolding_all rfl

/-- What a sum makes of the sign of a zero is the sign of a zero at most. -/
theorem alike_add_zero (x : Float) : Alike (x + 0) (x + -0) ∧ Alike (0 + x) (-0 + x) := by
  simp only [add_eq, view_zero, view_neg_zero]
  cases view x with
  | zero s => cases s <;> exact ⟨alike_zeros _ _, alike_zeros _ _⟩
  | _ => exact ⟨.refl _, .refl _⟩

theorem alike_sub_zero (x : Float) : Alike (x - 0) (x - -0) ∧ Alike (0 - x) (-0 - x) := by
  simp only [sub_eq, view_zero, view_neg_zero]
  cases view x with
  | zero s => cases s <;> exact ⟨alike_zeros _ _, alike_zeros _ _⟩
  | _ => exact ⟨.refl _, .refl _⟩

theorem alike_zero_div (x : Float) : Alike (0 / x) (-0 / x) := by
  simp only [div_eq, view_zero, view_neg_zero]
  cases view x with
  | infinity | finite => exact alike_zeros _ _
  | _ => exact .refl _

/-- A function that does not tell the zeros apart tells no alike numbers apart. -/
theorem Alike.map (h : Alike x y) (f : Float → Float) (hzero : Alike (f 0) (f (-0))) :
    Alike (f x) (f y) := by
  rcases alike_iff.mp h with rfl | ⟨rfl, rfl⟩ | ⟨rfl, rfl⟩
  · exact .refl _
  · exact hzero
  · exact hzero.symm

theorem Alike.add (hx : Alike x x') (hy : Alike y y') : Alike (x + y) (x' + y') :=
  (hx.map (· + y) (alike_add_zero y).2).trans (hy.map (x' + ·) (alike_add_zero x').1)

theorem Alike.sub (hx : Alike x x') (hy : Alike y y') : Alike (x - y) (x' - y') :=
  (hx.map (· - y) (alike_sub_zero y).2).trans (hy.map (x' - ·) (alike_sub_zero x').1)

theorem Alike.div_right (h : Alike x x') (y : Float) : Alike (x / y) (x' / y) :=
  h.map (· / y) (alike_zero_div y)

end Rollup.Number
