import Rollup.Number.Order
import Rollup.Proofs.Double.Sign

/-! # The order of doubles is linear up to NaN

Every double but NaN has a rank, and doubles are compared as their ranks are. The two zeros share
one.
-/

namespace Rollup.Number

open Float.Model
open Float.Model.UnpackedFloat (Sign)

abbrev Rank := ℤ ×ₗ ℤ ×ₗ ℤ

/-- Negative before zero before positive, each by size. -/
def unpackedRank : UnpackedFloat → Rank
  | .infinity .negative => toLex (-2, toLex (0, 0))
  | .finite .negative m e _ => toLex (-1, toLex (-e, -m))
  | .notANumber | .zero _ => toLex (0, toLex (0, 0))
  | .finite .positive m e _ => toLex (1, toLex (e, m))
  | .infinity .positive => toLex (2, toLex (0, 0))

def rank (x : Float) : Rank := unpackedRank (view x)

theorem unpackedRank_bounds (f : UnpackedFloat) :
    unpackedRank (.infinity .negative) ≤ unpackedRank f ∧
      unpackedRank f ≤ unpackedRank (.infinity .positive) := by
  rcases f with (_ | _) | _ | _ | ⟨_ | _, m, e, h⟩ <;>
    simp [unpackedRank, Prod.Lex.toLex_le_toLex]

theorem compare_toLex (a b c a' b' c' : ℤ) :
    compare (toLex (a, toLex (b, c)) : Rank) (toLex (a', toLex (b', c'))) =
      (compare a a').then ((compare b b').then (compare c c')) := rfl

theorem compare_neg_neg (a b : ℤ) : compare (-a) (-b) = (compare a b).swap := by
  rw [← Int.compare_swap]
  rcases lt_trichotomy a b with h | rfl | h
  · rw [compare_lt_iff_lt.mpr (by omega), compare_lt_iff_lt.mpr h]
  · simp
  · rw [compare_gt_iff_gt.mpr (by omega), compare_gt_iff_gt.mpr h]

theorem compare_natCast (a b : ℕ) : compare (a : ℤ) (b : ℤ) = compare a b := by
  rcases lt_trichotomy a b with h | rfl | h
  · rw [compare_lt_iff_lt.mpr (by omega), compare_lt_iff_lt.mpr h]
  · simp
  · rw [compare_gt_iff_gt.mpr (by omega), compare_gt_iff_gt.mpr h]

theorem unpacked_compare_eq {f g : UnpackedFloat} (hf : unpackedSign? f ≠ none)
    (hg : unpackedSign? g ≠ none) :
    f.compare g = some (compare (unpackedRank f) (unpackedRank g)) := by
  rcases f with (_ | _) | _ | _ | ⟨_ | _, m₁, e₁, h₁⟩ <;>
    rcases g with (_ | _) | _ | _ | ⟨_ | _, m₂, e₂, h₂⟩
  case finite.negative.finite.negative =>
    simp only [unpackedRank, compare_toLex, compare_neg_neg, compare_natCast, UnpackedFloat.compare,
      Ordering.swap_then]
    rfl
  case finite.positive.finite.positive =>
    simp only [unpackedRank, compare_toLex, compare_natCast, UnpackedFloat.compare]
    rfl
  all_goals first | rfl | exact absurd rfl hf | exact absurd rfl hg

theorem compare_eq {x y : Float} (hx : x.isNaN = false) (hy : y.isNaN = false) :
    x.toModel.compare y.toModel = some (compare (rank x) (rank y)) := by
  have hne : ∀ z : Float, z.isNaN = false → sign? z ≠ none := by
    intro z hz h
    rw [(isNaN_iff_sign?_eq_none z).mpr h] at hz
    exact absurd hz (by simp)
  exact unpacked_compare_eq (hne x hx) (hne y hy)

theorem lt_iff_rank_lt {x y : Float} (hx : x.isNaN = false) (hy : y.isNaN = false) :
    x < y ↔ rank x < rank y := by
  change (decide ((x.toModel.compare y.toModel == some .lt) = true)) = true ↔ _
  rw [compare_eq hx hy, ← compare_lt_iff_lt]
  simp

theorem le_iff_rank_le {x y : Float} (hx : x.isNaN = false) (hy : y.isNaN = false) :
    x ≤ y ↔ rank x ≤ rank y := by
  have hle : x ≤ y ↔ (x.toModel.compare y.toModel).any Ordering.isLE := by
    change decide (_ = true) = true ↔ _
    rw [decide_eq_true_iff]
    rfl
  rw [hle, compare_eq hx hy, Option.any_some, ← compare_le_iff_le, Ordering.isLE_iff_ne_gt]

theorem beq_iff_rank_eq {x y : Float} (hx : x.isNaN = false) (hy : y.isNaN = false) :
    x == y ↔ rank x = rank y := by
  change (x.toModel.compare y.toModel == some .eq) = true ↔ _
  rw [compare_eq hx hy, beq_iff_eq, Option.some_inj]
  exact compare_eq_iff_eq

theorem order?_eq {x y : Float} (hx : x.isNaN = false) (hy : y.isNaN = false) :
    order? x y = some (compare (rank x) (rank y)) := by
  unfold order?
  simp only [lt_iff_rank_lt hx hy, lt_iff_rank_lt hy hx, beq_iff_rank_eq hx hy]
  rcases lt_trichotomy (rank x) (rank y) with h | h | h
  · rw [if_pos h, compare_lt_iff_lt.mpr h]
  · rw [if_neg h.not_lt, if_pos h, compare_eq_iff_eq.mpr h]
  · rw [if_neg h.not_gt, if_neg h.ne', if_pos h, compare_gt_iff_gt.mpr h]

end Rollup.Number
