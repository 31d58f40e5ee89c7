import Rollup.Proofs.Double.Decimal
import Rollup.Proofs.Number.Nearest

/-! # Every number has a nearest double

Every positive number that is not too small lies in the interval of rounding of one mantissa and
exponent. The number and the double differ by half a unit in the last place at most, and no power of
two is between them.
-/

namespace Rollup.Number

open Float.Model
open Float.Model.UnpackedFloat (Sign)

/-! ## Intervals cover the numbers -/

/-- In units of the last place, the interval of an even mantissa has its ends. -/
theorem holds_of_scaled {b : Binary64} {w : ℚ} (hb : 0 < b.mantissa) (hlow : b.mantissa - below b ≤ w)
    (hhigh : w ≤ b.mantissa + 1 / 2)
    (hodd : b.mantissa % 2 = 1 → b.mantissa - below b < w ∧ w < b.mantissa + 1 / 2) :
    (Interval.of b).Holds (w * 2 ^ b.exponent) := by
  have hE : (0 : ℚ) < 2 ^ b.exponent := by positivity
  unfold Interval.Holds
  rw [low_eq b hb, high_eq]
  split
  case isTrue =>
    exact ⟨mul_le_mul_of_nonneg_right hlow hE.le, mul_le_mul_of_nonneg_right hhigh hE.le⟩
  case isFalse hclosed =>
    have hmod : b.mantissa % 2 = 1 := by
      simp only [Interval.of, decide_eq_true_iff] at hclosed
      omega
    exact ⟨mul_lt_mul_of_pos_right (hodd hmod).1 hE, mul_lt_mul_of_pos_right (hodd hmod).2 hE⟩

/-- The exponent for which a number has 53 binary digits before the point, but for the smallest. -/
theorem exists_scaled {v : ℚ} (hv : 2 ^ (-1074 : ℤ) ≤ v) : ∃ (E : ℤ) (w : ℚ), v = w * 2 ^ E ∧
    -1074 ≤ E ∧ 1 ≤ w ∧ w < 2 ^ 53 ∧ (E = -1074 ∨ 2 ^ 52 ≤ w) := by
  have hpos : 0 < v := lt_of_lt_of_le (by positivity) hv
  have hlow : (2 : ℚ) ^ Int.log 2 v ≤ v := Int.zpow_log_le_self (b := 2) (by decide) hpos
  have hhigh : v < (2 : ℚ) ^ (Int.log 2 v + 1) := Int.lt_zpow_succ_log_self (b := 2) (by decide) v
  obtain ⟨E, hE⟩ : ∃ E, max (Int.log 2 v - 52) (-1074) = E := ⟨_, rfl⟩
  have hcancel : v / 2 ^ E * 2 ^ E = v := div_mul_cancel₀ _ (by positivity)
  have hscale : (0 : ℚ) < 2 ^ E := by positivity
  refine ⟨E, v / 2 ^ E, hcancel.symm, by omega, ?_, ?_, ?_⟩
  · rw [one_le_div hscale]
    rcases (by omega : E = -1074 ∨ E ≤ Int.log 2 v) with h | h
    · exact h ▸ hv
    · exact (zpow_le_zpow_right₀ one_le_two h).trans hlow
  · rw [div_lt_iff₀ hscale, ← zpow_natCast, ← zpow_add₀ two_ne_zero]
    exact hhigh.trans_le (zpow_le_zpow_right₀ one_le_two (by push_cast; omega))
  · refine (em (E = -1074)).imp_right fun h => ?_
    rw [le_div_iff₀ hscale, ← zpow_natCast, ← zpow_add₀ two_ne_zero]
    exact (zpow_le_zpow_right₀ one_le_two (by push_cast; omega)).trans hlow

/-- The numbers between half the smallest double and that double round up to it. -/
theorem holds_least {v : ℚ} (hlow : 2 ^ (-1075 : ℤ) < v) (hhigh : v < 2 ^ (-1074 : ℤ)) :
    (Interval.of ⟨false, 1, -1074⟩).Holds v := by
  have hunit : (0 : ℚ) < 2 ^ (-1074 : ℤ) := by positivity
  have hhalf : (2 : ℚ) ^ (-1074 : ℤ) = 2 ^ (-1075 : ℤ) * 2 := zpow_add_one₀ two_ne_zero (-1075)
  have hbelow : below ⟨false, 1, -1074⟩ = 1 / 2 := if_neg fun h => by norm_num at h
  have hw : 1 / 2 < v / 2 ^ (-1074 : ℤ) ∧ v / 2 ^ (-1074 : ℤ) < 1 := by
    rw [lt_div_iff₀ hunit, div_lt_one hunit]
    exact ⟨by linarith only [hlow, hhalf], hhigh⟩
  have h := holds_of_scaled (b := ⟨false, 1, -1074⟩) (w := v / 2 ^ (-1074 : ℤ)) one_pos
    (by rw [hbelow, Nat.cast_one]; linarith only [hw.1]) (by rw [Nat.cast_one]; linarith only [hw.2])
    fun _ => by rw [hbelow, Nat.cast_one]; constructor <;> linarith only [hw.1, hw.2]
  rwa [div_mul_cancel₀ _ hunit.ne'] at h

theorem exists_holds {v : ℚ} (hv : 2 ^ (-1075 : ℤ) < v) : ∃ b : Binary64,
    Normalized b.mantissa b.exponent ∧ (Interval.of b).Holds v := by
  rcases lt_or_ge v (2 ^ (-1074 : ℤ)) with hless | hv
  · exact ⟨⟨false, 1, -1074⟩, ⟨one_pos, by norm_num, le_rfl, .inr rfl⟩, holds_least hv hless⟩
  obtain ⟨E, w, rfl, hE, hone, hsmall, hfull⟩ := exists_scaled hv
  have hnear := isNearestEven_nearestEven w
  obtain ⟨M, hM⟩ := Int.eq_ofNat_of_zero_le (hnear.le (n := 0) (by push_cast; linarith))
  rw [hM] at hnear
  have hM1 : 1 ≤ M := by exact_mod_cast hnear.le (n := 1) (by exact_mod_cast hone)
  have hM53 : M ≤ 2 ^ 53 := by
    exact_mod_cast hnear.ge (n := (2 ^ 53 : ℕ)) (by exact_mod_cast hsmall.le)
  obtain ⟨hlow, hhigh⟩ := abs_le.mp hnear.near
  rw [Int.cast_natCast] at hlow hhigh
  rcases hM53.lt_or_eq with hlt | rfl
  · have hfull' : 2 ^ 52 ≤ M ∨ E = -1074 := hfull.symm.imp_left fun h => by
      exact_mod_cast hnear.le (n := (2 ^ 52 : ℕ)) (by exact_mod_cast h)
    have hbelow : M - below ⟨false, M, E⟩ ≤ w := by
      unfold below
      split
      case isTrue h =>
        have hw : (M : ℚ) ≤ w := by
          rw [show M = 2 ^ 52 from h.1]
          exact_mod_cast hfull.resolve_left h.2.ne'
        linarith
      case isFalse => linarith
    refine ⟨⟨false, M, E⟩, ⟨hM1, hlt, hE, hfull'⟩,
      holds_of_scaled hM1 hbelow (by linarith) fun hodd => ?_⟩
    have hodd' : M % 2 = 1 := hodd
    have hne : |w - (M : ℤ)| ≠ 1 / 2 := fun htie => by
      have := hnear.even htie
      omega
    have hlt' := abs_lt.mp (lt_of_le_of_ne hnear.near hne)
    rw [Int.cast_natCast] at hlt'
    have hhalf : below ⟨false, M, E⟩ = 1 / 2 := if_neg fun h => by
      rw [show M = 2 ^ 52 from h.1] at hodd'
      norm_num at hodd'
    rw [hhalf]
    exact ⟨by linarith, by linarith⟩
  · -- Rounding carries into the next exponent.
    refine ⟨⟨false, 2 ^ 52, E + 1⟩, ⟨by positivity, by norm_num, by dsimp only; omega, .inl le_rfl⟩, ?_⟩
    have hhalf : w * 2 ^ E = w / 2 * 2 ^ (E + 1) := by
      rw [zpow_add_one₀ two_ne_zero]
      ring
    have hbelow : below ⟨false, 2 ^ 52, E + 1⟩ = 1 / 4 := if_pos ⟨rfl, by dsimp only; omega⟩
    rw [hhalf]
    refine holds_of_scaled (b := ⟨false, 2 ^ 52, E + 1⟩) (by positivity) ?_ ?_ fun h => by norm_num at h
    · rw [hbelow]
      push_cast at hlow ⊢
      linarith
    · push_cast
      linarith

/-- The largest double. -/
def largest : ℚ := (2 ^ 53 - 1) * 2 ^ (971 : ℤ)

theorem zpow_le_largest {k : ℤ} (hk : k ≤ 1023) : (2 : ℚ) ^ k ≤ largest := by
  calc (2 : ℚ) ^ k ≤ 2 ^ (1023 : ℤ) := zpow_le_zpow_right₀ one_le_two hk
    _ = 2 ^ 52 * 2 ^ (971 : ℤ) := by
        rw [← zpow_natCast, ← zpow_add₀ two_ne_zero]
        rfl
    _ ≤ largest := mul_le_mul_of_nonneg_right (by norm_num) (by positivity)

/-! ## The error of rounding -/

section Error

variable {b : Binary64} (hb : Normalized b.mantissa b.exponent) {v : ℚ} (hin : (Interval.of b).Holds v)

include hb hin

theorem holds_bounds : (b.mantissa - below b) * 2 ^ b.exponent ≤ v ∧
    v ≤ (b.mantissa + 1 / 2) * 2 ^ b.exponent := by
  have h := hin.le
  rwa [low_eq b hb.pos, high_eq] at h

theorem holds_pos : 0 < v := by
  have hone : (1 : ℚ) ≤ b.mantissa := by exact_mod_cast hb.pos
  refine lt_of_lt_of_le (mul_pos ?_ (by positivity)) (holds_bounds hb hin).1
  linarith [below_le b]

/-- Half a unit in the last place of 53 binary digits, or of the smallest double. -/
theorem abs_size_sub_le : |b.mantissa * 2 ^ b.exponent - v| ≤ v / 2 ^ 53 + 2 ^ (-1075 : ℤ) := by
  obtain ⟨hlow, hhigh⟩ := holds_bounds hb hin
  have hpos := holds_pos hb hin
  have hE : (0 : ℚ) < 2 ^ b.exponent := by positivity
  have hleast : (0 : ℚ) < 2 ^ (-1075 : ℤ) := by positivity
  have hbelow := mul_le_mul_of_nonneg_right (below_le b) hE.le
  by_cases hexp : b.exponent = -1074
  · have hhalf : (1 / 2 : ℚ) * 2 ^ b.exponent = 2 ^ (-1075 : ℤ) := by
      rw [hexp, show (-1074 : ℤ) = -1075 + 1 by rfl, zpow_add_one₀ two_ne_zero]
      ring
    have hv : 0 ≤ v / 2 ^ 53 := by positivity
    rw [abs_le]
    constructor <;> linarith
  · have hfull : 2 ^ 52 ≤ b.mantissa := hb.full.resolve_right hexp
    rcases hfull.lt_or_eq with hlt | heq
    · have hunit : ((2 : ℚ) ^ 52 + 1) * 2 ^ b.exponent ≤ b.mantissa * 2 ^ b.exponent :=
        mul_le_mul_of_nonneg_right (by exact_mod_cast hlt) hE.le
      have hv : (1 / 2 : ℚ) * 2 ^ b.exponent ≤ v / 2 ^ 53 := by
        rw [le_div_iff₀ (by positivity)]
        linarith
      rw [abs_le]
      constructor <;> linarith
    · -- Below a power of two the doubles are twice as dense.
      have hquarter : below b = 1 / 4 := if_pos ⟨heq.symm, by have := hb.least; omega⟩
      rw [hquarter] at hlow
      have hunit : (b.mantissa : ℚ) * 2 ^ b.exponent = 2 ^ 52 * 2 ^ b.exponent := by
        rw [← heq]
        push_cast
        rfl
      have hv : (1 / 4 : ℚ) * 2 ^ b.exponent ≤ v / 2 ^ 53 := by
        rw [le_div_iff₀ (by positivity)]
        linarith
      rcases le_total (b.mantissa * 2 ^ b.exponent : ℚ) v with hle | hle
      · have hv' : (1 / 2 : ℚ) * 2 ^ b.exponent ≤ v / 2 ^ 53 := by
          rw [le_div_iff₀ (by positivity)]
          linarith
        rw [abs_le]
        constructor <;> linarith
      · rw [abs_le]
        constructor <;> linarith

/-- Rounding goes past no power of two. -/
theorem zpow_le_size {k : ℤ} (hk : 2 ^ k ≤ v) : (2 : ℚ) ^ k ≤ b.mantissa * 2 ^ b.exponent := by
  have hone : (1 : ℚ) ≤ b.mantissa := by exact_mod_cast hb.pos
  rcases le_total k b.exponent with hle | hle
  · exact (zpow_le_zpow_right₀ one_le_two hle).trans (le_mul_of_one_le_left (by positivity) hone)
  · obtain ⟨n, hn⟩ := Int.eq_ofNat_of_zero_le (sub_nonneg.mpr hle)
    have hsplit : (2 : ℚ) ^ k = (2 ^ n : ℕ) * 2 ^ b.exponent := by
      rw [show k = n + b.exponent by omega, zpow_add₀ two_ne_zero, zpow_natCast]
      push_cast
      rfl
    have hlt : ((2 ^ n : ℕ) : ℚ) < b.mantissa + 1 := by
      have h := le_of_mul_le_mul_right ((hsplit ▸ hk).trans (holds_bounds hb hin).2) (by positivity)
      linarith
    rw [hsplit]
    exact mul_le_mul_of_nonneg_right (by exact_mod_cast Nat.lt_succ_iff.mp (by exact_mod_cast hlt))
      (by positivity)

theorem size_le_zpow {k : ℤ} (hleast : -1074 ≤ k) (hk : v ≤ 2 ^ k) :
    (b.mantissa * 2 ^ b.exponent : ℚ) ≤ 2 ^ k := by
  have hlow := (holds_bounds hb hin).1.trans hk
  have hbelow := below_le b
  rcases le_or_gt b.exponent k with hle | hlt
  · obtain ⟨n, hn⟩ := Int.eq_ofNat_of_zero_le (sub_nonneg.mpr hle)
    have hsplit : (2 : ℚ) ^ k = (2 ^ n : ℕ) * 2 ^ b.exponent := by
      rw [show k = n + b.exponent by omega, zpow_add₀ two_ne_zero, zpow_natCast]
      push_cast
      rfl
    have hlt : (b.mantissa : ℚ) < (2 ^ n : ℕ) + 1 := by
      rw [hsplit] at hlow
      have h := le_of_mul_le_mul_right hlow (by positivity)
      linarith
    rw [hsplit]
    exact mul_le_mul_of_nonneg_right (by exact_mod_cast Nat.lt_succ_iff.mp (by exact_mod_cast hlt))
      (by positivity)
  · have hfull : 2 ^ 52 ≤ b.mantissa := hb.full.resolve_right (by omega)
    have htwo : (2 : ℚ) ≤ b.mantissa := by exact_mod_cast (by omega : 2 ≤ b.mantissa)
    have hone : (2 : ℚ) ^ b.exponent ≤ 2 ^ k :=
      le_trans (le_mul_of_one_le_left (by positivity) (by linarith)) hlow
    exact absurd hone (not_le.mpr (zpow_lt_zpow_right₀ one_lt_two hlt))

theorem canonical_of_le (hv : v ≤ largest) : Canonical b.mantissa b.exponent := by
  refine ⟨hb.pos, hb.small, hb.least, ?_, hb.full⟩
  by_contra hmost
  have hfull : 2 ^ 52 ≤ b.mantissa := hb.full.resolve_right (by omega)
  have hM : (2 : ℚ) ^ 52 - 1 / 4 ≤ b.mantissa - below b := by
    rcases hfull.lt_or_eq with hlt | heq
    · have hM : (2 : ℚ) ^ 52 + 1 ≤ b.mantissa := by exact_mod_cast hlt
      linarith [below_le b]
    · have hquarter : below b = 1 / 4 := if_pos ⟨heq.symm, by omega⟩
      rw [hquarter, ← heq]
      norm_num
  have hunit : (2 : ℚ) * 2 ^ (971 : ℤ) ≤ 2 ^ b.exponent := by
    rw [← zpow_one_add₀ two_ne_zero]
    exact zpow_le_zpow_right₀ one_le_two (by omega)
  have hlarge := (mul_le_mul hM hunit (by positivity) (le_trans (by norm_num) hM)).trans
    ((holds_bounds hb hin).1.trans hv)
  have hpos : (0 : ℚ) < 2 ^ (971 : ℤ) := by positivity
  unfold largest at hlarge
  generalize (2 : ℚ) ^ (971 : ℤ) = unit at hlarge hpos
  linarith only [hlarge, hpos]

/-- Of all doubles only one has a number in its interval. -/
theorem holds_unique {b' : Binary64} (hb' : Normalized b'.mantissa b'.exponent)
    (hin' : (Interval.of b').Holds v) :
    b.mantissa = b'.mantissa ∧ b.exponent = b'.exponent := by
  have hnum : 0 < v.num := Rat.num_pos.mpr (holds_pos hb hin)
  obtain ⟨K, hK⟩ : ∃ K, 1074 ≤ K := ⟨1074, le_rfl⟩
  have hv : ((v.num.natAbs * 2 ^ K : ℕ) : ℚ) / v.den * 2 ^ (-(K : ℤ)) = v := by
    have habs : (v.num.natAbs : ℚ) = v.num := by
      rw [Nat.cast_natAbs, abs_of_pos hnum]
    rw [Nat.cast_mul, habs, zpow_neg, zpow_natCast, Nat.cast_pow, Nat.cast_ofNat, mul_div_right_comm,
      mul_inv_cancel_right₀ (by positivity), Rat.num_div_den]
  have hlocates := locates_div (v.num.natAbs * 2 ^ K) v.den_pos
  have htarget (m : ℕ) : -(K : ℤ) ≤ Format.binary64.targetExponent (totalExponent m (-K)) :=
    targetExponent_eq _ ▸ le_trans (by omega) (le_max_right _ _)
  -- both are what the number rounds to
  have h := roundWithAccuracy_eq .positive hb hlocates (htarget _) (hv.symm ▸ hin)
  have h' := roundWithAccuracy_eq .positive hb' hlocates (htarget _) (hv.symm ▸ hin')
  rw [h] at h'
  exact ⟨(UnpackedFloat.finite.inj h').2.1, (UnpackedFloat.finite.inj h').2.2⟩

end Error

end Rollup.Number
