import Rollup.Format.Basic
import Rollup.Proofs.Format.Convergents

/-! # Numbers shown as fractions

The search for a fraction stops at the first convergent that is close. Its denominator is small, but
the fraction need not be the number: only doubles nearest to some fraction with a small denominator
are found exactly.
-/

namespace Rollup

namespace Fraction

open Number

/-! ## How close is close -/

theorem exact_tolerance :
    (1e-12 : Float).isFinite ∧ 0 < exact 1e-12 ∧ exact 1e-12 ≤ 1 / 10 ^ 12 := by
  have hfinite : (1e-12 : Float).isFinite := by decide +kernel
  have hbinary : Binary64.ofFloat 1e-12 = ⟨false, 4951760157141521, -92⟩ := by decide +kernel
  have hexact : exact 1e-12 = 4951760157141521 * 2 ^ (-92 : ℤ) := by
    rw [exact, hbinary, Binary64.value]
    norm_num
  rw [hexact]
  exact ⟨hfinite, by norm_num, by norm_num⟩

theorem isFinite_of_rounds {x : Float} {v : ℚ} (h : Rounds x v) (hv : |v| ≤ 2 ^ 70) : x.isFinite :=
  h.isFinite (hv.trans (zpow_le_largest (k := 70) (by norm_num)))

section Quotient

variable {h k : ℤ} (hsmall : IsSmall h k)

include hsmall

theorem IsSmall.abs_numerator_le : |(h : ℚ)| ≤ 2 ^ 63 := by
  obtain ⟨hlow, hhigh⟩ := Word.fits_iff.mp hsmall.numerator
  have hbound : |h| ≤ 2 ^ 63 := abs_le.mpr ⟨hlow, hhigh.le⟩
  exact_mod_cast hbound

theorem IsSmall.one_le : (1 : ℚ) ≤ k := by exact_mod_cast hsmall.positive

theorem IsSmall.pos : (0 : ℚ) < k := zero_lt_one.trans_le hsmall.one_le

theorem IsSmall.le : (k : ℚ) ≤ 1000 := by exact_mod_cast hsmall.denominator

theorem IsSmall.abs_div_eq (x : ℚ) : |x / k| = |x| / k := by rw [abs_div, abs_of_pos hsmall.pos]

theorem IsSmall.abs_div_le (x : ℚ) : |x / k| ≤ |x| := by
  rw [hsmall.abs_div_eq]
  exact div_le_self (abs_nonneg x) hsmall.one_le

theorem IsSmall.rounds_numerator : (Float.ofInt h).isFinite ∧ Rounds (Float.ofInt h) h := by
  have hbound := hsmall.abs_numerator_le
  have hrounds : Rounds (Float.ofInt h) h := rounds_ofInt (by
    rw [Nat.cast_natAbs, Int.cast_abs]
    exact hbound.trans (zpow_le_largest (k := 63) (by norm_num)))
  exact ⟨isFinite_of_rounds hrounds (hbound.trans (by norm_num)), hrounds⟩

theorem IsSmall.exact_denominator : (Float.ofInt k).isFinite ∧ exact (Float.ofInt k) = k :=
  exact_ofInt (by
    have hlow := hsmall.positive
    have hhigh := hsmall.denominator
    rw [maxDenominator] at hhigh
    omega)

/-- The numerator is rounded first, and then the quotient. -/
theorem IsSmall.rounds_quotient : (Float.ofInt h / Float.ofInt k).isFinite ∧
    Rounds (Float.ofInt h / Float.ofInt k) (exact (Float.ofInt h) / k) := by
  obtain ⟨hh, hrounds⟩ := hsmall.rounds_numerator
  obtain ⟨hfinite, hexact⟩ := hsmall.exact_denominator
  have hdiv := rounds_div hh hfinite (by rw [hexact]; exact hsmall.pos.ne')
  rw [hexact] at hdiv
  refine ⟨isFinite_of_rounds hdiv ((hsmall.abs_div_le _).trans ?_), hdiv⟩
  have hnear := hrounds.abs_sub_le hh
  have hbound := hsmall.abs_numerator_le
  have hsize := abs_sub_abs_le_abs_sub (exact (Float.ofInt h)) h
  norm_num at hbound ⊢
  linarith

theorem IsSmall.abs_quotient_sub_le : |exact (Float.ofInt h / Float.ofInt k) - h / k| ≤
    |(h / k : ℚ)| / 10 ^ 14 + 1 / 10 ^ 29 := by
  obtain ⟨hh, hrounds⟩ := hsmall.rounds_numerator
  obtain ⟨hfinite, hquotient⟩ := hsmall.rounds_quotient
  have hnumerator : |exact (Float.ofInt h) / k - h / k| ≤ |(h / k : ℚ)| / 10 ^ 15 + 1 / 10 ^ 30 := by
    have hone : (1 / 10 ^ 30 : ℚ) / k ≤ 1 / 10 ^ 30 := div_le_self (by positivity) hsmall.one_le
    have hnear := div_le_div_of_nonneg_right (hrounds.abs_sub_le hh) hsmall.pos.le
    rw [← hsmall.abs_div_eq, sub_div, add_div, div_right_comm, ← hsmall.abs_div_eq] at hnear
    linarith only [hnear, hone]
  have hround := hquotient.abs_sub_le hfinite
  have hsum := abs_sub_le (exact (Float.ofInt h / Float.ofInt k)) (exact (Float.ofInt h) / k) (h / k)
  have hsize := abs_sub_abs_le_abs_sub (exact (Float.ofInt h) / k) (h / k : ℚ)
  have hnonneg := abs_nonneg (h / k : ℚ)
  linarith only [hnumerator, hround, hsum, hsize, hnonneg]

theorem IsSmall.abs_quotient_le : |exact (Float.ofInt h / Float.ofInt k)| ≤ 2 ^ 64 := by
  have hnear := hsmall.abs_quotient_sub_le
  have hbound := (hsmall.abs_div_le h).trans hsmall.abs_numerator_le
  have hsize := abs_sub_abs_le_abs_sub (exact (Float.ofInt h / Float.ofInt k)) (h / k : ℚ)
  norm_num at hbound ⊢
  linarith

/-- The numerator is exact unless the number is huge. -/
theorem IsSmall.exact_numerator (hq : |exact (Float.ofInt h / Float.ofInt k)| * k ≤ 2 ^ 52) :
    (Float.ofInt h).isFinite ∧ exact (Float.ofInt h) = h := by
  refine exact_ofInt ?_
  have hnear := hsmall.abs_quotient_sub_le
  have hsize := abs_sub_abs_le_abs_sub (h / k : ℚ) (exact (Float.ofInt h / Float.ofInt k))
  rw [abs_sub_comm, hsmall.abs_div_eq] at hsize
  rw [hsmall.abs_div_eq] at hnear
  have hbound : |(h : ℚ)| / k * k ≤ (|exact (Float.ofInt h / Float.ofInt k)| +
      |(h : ℚ)| / k / 10 ^ 14 + 1 / 10 ^ 29) * k :=
    mul_le_mul_of_nonneg_right (by linarith only [hnear, hsize]) hsmall.pos.le
  have hnumerator : |(h : ℚ)| / k * k = |(h : ℚ)| := div_mul_cancel₀ _ hsmall.pos.ne'
  have hlt : |(h : ℚ)| < 2 ^ 53 := by linarith only [hbound, hnumerator, hq, hsmall.le]
  rw [← Int.cast_abs, Int.abs_eq_natAbs] at hlt
  exact_mod_cast hlt

/-- The quotient is then the double nearest to the fraction. -/
theorem IsSmall.rounds_fraction (hq : |exact (Float.ofInt h / Float.ofInt k)| * k ≤ 2 ^ 52) :
    Rounds (Float.ofInt h / Float.ofInt k) (h / k) := by
  have hrounds := hsmall.rounds_quotient.2
  rwa [(hsmall.exact_numerator hq).2] at hrounds

/-- A fraction other than zero is far from it. -/
theorem IsSmall.lt_abs (hh : h ≠ 0) : 2 ^ (-1075 : ℤ) < |(h / k : ℚ)| := by
  have hone : (1 : ℚ) ≤ |(h : ℚ)| := by exact_mod_cast Int.one_le_abs hh
  calc (2 : ℚ) ^ (-1075 : ℤ) ≤ 1 / 10 ^ 30 := least_le
    _ < 1 / 1000 := by norm_num
    _ ≤ 1 / k := one_div_le_one_div_of_le hsmall.pos hsmall.le
    _ ≤ |(h : ℚ)| / k := div_le_div_of_nonneg_right hone hsmall.pos.le
    _ = |(h / k : ℚ)| := (hsmall.abs_div_eq h).symm

theorem IsSmall.abs_quotient_mul_le (hq : |exact (Float.ofInt h / Float.ofInt k)| ≤ 10 ^ 6) :
    |exact (Float.ofInt h / Float.ofInt k)| * k ≤ 2 ^ 52 := by
  have hmul := mul_le_mul hq hsmall.le hsmall.pos.le (by norm_num)
  exact hmul.trans (by norm_num)

theorem IsSmall.abs_fraction_sub_le (hq : |exact (Float.ofInt h / Float.ofInt k)| ≤ 10 ^ 6) :
    |(h / k : ℚ) - exact (Float.ofInt h / Float.ofInt k)| ≤ 2 / 10 ^ 8 := by
  have hnear := hsmall.abs_quotient_sub_le
  rw [abs_sub_comm] at hnear
  have hsize := abs_sub_abs_le_abs_sub (h / k : ℚ) (exact (Float.ofInt h / Float.ofInt k))
  linarith only [hnear, hsize, hq]

/-- Different fractions are far apart. -/
theorem IsSmall.le_abs_sub {h' k' : ℤ} (hsmall' : IsSmall h' k') (hne : (h / k : ℚ) ≠ h' / k') :
    1 / 10 ^ 6 ≤ |(h / k : ℚ) - h' / k'| := by
  have hpos := hsmall.pos
  have hpos' := hsmall'.pos
  have hcross : h * k' - k * h' ≠ 0 := fun hzero => hne <| by
    rw [div_eq_div_iff hpos.ne' hpos'.ne']
    have : h * k' = h' * k := by linarith
    exact_mod_cast this
  have hone : (1 : ℚ) ≤ |(h : ℚ) * k' - k * h'| := by exact_mod_cast Int.one_le_abs hcross
  rw [div_sub_div _ _ hpos.ne' hpos'.ne', abs_div, abs_of_pos (mul_pos hpos hpos')]
  refine div_le_div₀ (abs_nonneg _) hone (mul_pos hpos hpos') ?_
  nlinarith [hsmall.le, hsmall'.le]

end Quotient

section Close

variable {n : Float} (hn : n.isFinite) (hsmall : |exact n| < 2 ^ 52)

include hn

/-- The tolerance grows with the number. -/
theorem exists_size {h k : ℤ} (hclose : isClose n h k) : ∃ size : Float, size.isFinite ∧
    exact size = max 1 |exact n| ∧ (Float.ofInt h / Float.ofInt k - n).abs ≤ 1e-12 * size := by
  have habs := isFinite_abs hn
  rw [isClose, decide_eq_true_iff] at hclose
  split at hclose
  case isTrue hless =>
    rw [lt_iff_exact_lt habs exact_literal_one.1, exact_literal_one.2, exact_abs hn] at hless
    exact ⟨1, exact_literal_one.1, by rw [exact_literal_one.2, max_eq_left hless.le], hclose⟩
  case isFalse hless =>
    rw [lt_iff_exact_lt habs exact_literal_one.1, exact_literal_one.2, exact_abs hn, not_lt] at hless
    exact ⟨n.abs, habs, by rw [exact_abs hn, max_eq_right hless], hclose⟩

include hsmall

/-- What is taken for close is close up to rounding. -/
theorem IsSmall.abs_quotient_sub_number_le {h k : ℤ} (hf : IsSmall h k) (hclose : isClose n h k) :
    |exact (Float.ofInt h / Float.ofInt k) - exact n| ≤ 1.01e-12 * max 1 |exact n| := by
  obtain ⟨size, hsize, hexact, hle⟩ := exists_size hn hclose
  obtain ⟨hq, -⟩ := hf.rounds_quotient
  have hdiff := rounds_sub hq hn
  have hbound := rounds_mul exact_tolerance.1 hsize
  have hone : 1 ≤ exact size := hexact ▸ le_max_left _ _
  have hsizeLe : exact size ≤ 2 ^ 52 := hexact ▸ max_le (by norm_num) hsmall.le
  obtain ⟨-, htolerance, htoleranceLe⟩ := exact_tolerance
  have hproduct : 0 ≤ exact 1e-12 * exact size ∧
      exact 1e-12 * exact size ≤ 1 / 10 ^ 12 * exact size := by
    have hnonneg : 0 ≤ exact size := zero_le_one.trans hone
    exact ⟨mul_nonneg htolerance.le hnonneg, mul_le_mul_of_nonneg_right htoleranceLe hnonneg⟩
  have hboundFinite : (1e-12 * size).isFinite := by
    refine isFinite_of_rounds hbound ?_
    rw [abs_of_nonneg hproduct.1]
    linarith only [hproduct.2, hsizeLe]
  have hdiffFinite : (Float.ofInt h / Float.ofInt k - n).isFinite := by
    refine isFinite_of_rounds hdiff ((abs_sub _ _).trans ?_)
    linarith only [hf.abs_quotient_le, hsmall]
  rw [le_iff_exact_le (isFinite_abs hdiffFinite) hboundFinite, exact_abs hdiffFinite] at hle
  have hboundNear := hbound.abs_sub_le hboundFinite
  rw [abs_of_nonneg hproduct.1] at hboundNear
  have hdiffNear := hdiff.abs_sub_le hdiffFinite
  rw [abs_sub_comm] at hdiffNear
  have hdiffSize := abs_sub_abs_le_abs_sub (exact (Float.ofInt h / Float.ofInt k) - exact n)
    (exact (Float.ofInt h / Float.ofInt k - n))
  rw [← hexact]
  linarith only [hle, (abs_le.mp hboundNear).2, hdiffNear, hdiffSize, hproduct.2, hone]

theorem IsSmall.near_of_isClose {h k : ℤ} (hf : IsSmall h k) (hclose : isClose n h k) :
    |(h / k : ℚ) - exact n| ≤ 2e-12 * max 1 |exact n| := by
  have hone := le_max_left 1 |exact n|
  have hsize := le_max_right 1 |exact n|
  have hquotient := hf.abs_quotient_sub_number_le hn hsmall hclose
  have hnear := hf.abs_quotient_sub_le
  rw [abs_sub_comm] at hnear
  have hfraction := abs_sub_abs_le_abs_sub (h / k : ℚ) (exact (Float.ofInt h / Float.ofInt k))
  have hvalue := abs_sub_abs_le_abs_sub (exact (Float.ofInt h / Float.ofInt k)) (exact n)
  have hsum := abs_sub_le (h / k : ℚ) (exact (Float.ofInt h / Float.ofInt k)) (exact n)
  linarith only [hone, hsize, hquotient, hnear, hfraction, hvalue, hsum]

end Close

/-! ## Fractions that are the number -/

section Exact

variable {n : Float} (hn : n.isFinite) (hwhole : isWhole n = false) {h k h' k' : ℤ}
  (hsmall : IsSmall h k)

include hn hwhole

theorem exact_ne_zero : exact n ≠ 0 := fun hzero => by
  have := (isWhole_iff hn).mpr ⟨0, by rw [hzero, Int.cast_zero]⟩
  rw [hwhole] at this
  cases this

include hsmall

theorem IsSmall.numerator_ne_zero (hq : |exact (Float.ofInt h / Float.ofInt k)| * k ≤ 2 ^ 52)
    (heq : Float.ofInt h / Float.ofInt k = n) : h ≠ 0 := by
  rintro rfl
  have hrounds := hsmall.rounds_fraction hq
  rw [heq, Int.cast_zero, zero_div] at hrounds
  exact exact_ne_zero hn hwhole (hrounds.exact_eq_zero hn)

/-- A quotient that is no whole number has a denominator other than one. -/
theorem IsSmall.two_le (heq : Float.ofInt h / Float.ofInt k = n) : 2 ≤ k := by
  by_contra hlt
  obtain rfl : k = 1 := by have := hsmall.positive; omega
  have hq : |exact (Float.ofInt h / Float.ofInt 1)| * (1 : ℤ) ≤ 2 ^ 52 := by
    rw [heq, Int.cast_one, mul_one]
    exact (abs_exact_lt_of_not_isWhole hn hwhole).le
  obtain ⟨hfinite, hexact⟩ := hsmall.exact_numerator hq
  have hrounds := hsmall.rounds_fraction hq
  have hself := rounds_self hfinite
  rw [heq] at hrounds
  rw [hexact, ← div_one (h : ℚ), ← Int.cast_one (R := ℚ)] at hself
  have hnum : n = Float.ofInt h :=
    hrounds.unique hself (hsmall.lt_abs (hsmall.numerator_ne_zero hn hwhole hq heq))
  have := (isWhole_iff hn).mpr ⟨h, hnum ▸ hexact⟩
  rw [hwhole] at this
  cases this

/-- A number that is the quotient of some fraction is that of every close one, as there is no other
fraction nearby. -/
theorem IsSmall.quotient_eq (hclose : isClose n h k) (hsmall' : IsSmall h' k')
    (hle : |exact n| ≤ 9e5) (heq : Float.ofInt h' / Float.ofInt k' = n) :
    Float.ofInt h / Float.ofInt k = n := by
  have hquotient := hsmall.abs_quotient_sub_number_le hn (abs_exact_lt_of_not_isWhole hn hwhole) hclose
  have hmax : max 1 |exact n| ≤ 9e5 := max_le (by norm_num) hle
  have hsize := abs_sub_abs_le_abs_sub (exact (Float.ofInt h / Float.ofInt k)) (exact n)
  have hq : |exact (Float.ofInt h / Float.ofInt k)| ≤ 10 ^ 6 := by
    linarith only [hquotient, hmax, hsize, hle]
  have hq' : |exact (Float.ofInt h' / Float.ofInt k')| ≤ 10 ^ 6 := by
    rw [heq]
    exact hle.trans (by norm_num)
  have hfraction : (h / k : ℚ) = h' / k' := by
    by_contra hne
    have hfar := hsmall.le_abs_sub hsmall' hne
    have hnear := hsmall.abs_fraction_sub_le hq
    have hnear' := hsmall'.abs_fraction_sub_le hq'
    rw [heq, abs_sub_comm] at hnear'
    have hmiddle := abs_sub_le (exact (Float.ofInt h / Float.ofInt k)) (exact n) (h' / k')
    have hsum := abs_sub_le (h / k : ℚ) (exact (Float.ofInt h / Float.ofInt k)) (h' / k')
    linarith only [hfar, hnear, hnear', hquotient, hmax, hmiddle, hsum]
  have hrounds := hsmall.rounds_fraction (hsmall.abs_quotient_mul_le hq)
  have hrounds' := hsmall'.rounds_fraction (hsmall'.abs_quotient_mul_le hq')
  have hh' := hsmall'.numerator_ne_zero hn hwhole (hsmall'.abs_quotient_mul_le hq') heq
  rw [hfraction] at hrounds
  rw [← heq]
  exact hrounds.unique hrounds' (hsmall'.lt_abs hh')

end Exact

end Fraction

namespace CellFormat

open Number Fraction

/-- A number that is shown as a fraction is not whole. The fraction has a denominator up to 1000 and
is as close as the tolerance and rounding allow. It is the number, with a denominator of two or more,
when its numerator divided by its denominator gives the number, and below 900000 that is so if the
number is the quotient of any such fraction at all. -/
theorem fraction_exact_iff {f : CellFormat} {defaults : FormatDefaults} {n : Float} {t : Text}
    (hn : n.isFinite) (hprintf : f.printf = none) (ht : f.fraction? defaults n = some t) :
    f.number defaults n = t ∧ ∃ a b : ℤ, t = Text.ofInt a ++ '/' :: Text.ofInt b ∧ IsSmall a b ∧
      |(a / b : ℚ) - exact n| ≤ 2e-12 * max 1 |exact n| ∧
      (Float.ofInt a / Float.ofInt b = n → 2 ≤ b) ∧
      (|exact n| ≤ 9e5 → (Float.ofInt a / Float.ofInt b = n ↔
        ∃ h k : ℤ, IsSmall h k ∧ Float.ofInt h / Float.ofInt k = n)) := by
  have hnumber : f.number defaults n = t := by
    rw [number, numberBy, isNaN_of_isFinite hn, isInf_of_isFinite hn, if_neg Bool.false_ne_true,
      if_neg Bool.false_ne_true, hprintf]
    dsimp only
    rw [ht]
    rfl
  refine ⟨hnumber, ?_⟩
  unfold fraction? at ht
  split at ht
  case isFalse => cases ht
  case isTrue hasked =>
    have hwhole : isWhole n = false := by simpa using (Bool.and_eq_true_iff.mp hasked).2
    have hn52 := abs_exact_lt_of_not_isWhole hn hwhole
    obtain ⟨⟨a, b⟩, hfound, rfl⟩ := Option.map_eq_some_iff.mp ht
    obtain ⟨hsmall, hclose⟩ := search_eq_some (Convergents.ready_start n) hfound
    refine ⟨a, b, rfl, hsmall, hsmall.near_of_isClose hn hn52 hclose, hsmall.two_le hn hwhole,
      fun hle => ⟨fun heq => ⟨a, b, hsmall, heq⟩, ?_⟩⟩
    rintro ⟨h, k, hsmall', heq⟩
    exact hsmall.quotient_eq hn hwhole hclose hsmall' hle heq

theorem fraction_exact_three_quarters :
    let f : CellFormat := { fractions := some true }
    f.number {} 0.75 = "3/4".toList ∧
      ∃ a b : ℤ, "3/4".toList = Text.ofInt a ++ '/' :: Text.ofInt b ∧ IsSmall a b ∧
        Float.ofInt a / Float.ofInt b = 0.75 ∧ 2 ≤ b := by
  have hfinite : (0.75 : Float).isFinite := by decide +kernel
  have hsmall : |exact 0.75| ≤ 9e5 := by
    have hbinary : Binary64.ofFloat 0.75 = ⟨false, 6755399441055744, -53⟩ := by decide +kernel
    rw [exact, hbinary, Binary64.value]
    norm_num
  have htext : fraction? { fractions := some true } {} 0.75 = some "3/4".toList := by decide +kernel
  obtain ⟨hnumber, a, b, ht, hab, -, htwo, hiff⟩ := fraction_exact_iff hfinite rfl htext
  have heq := (hiff hsmall).mpr ⟨3, 4, ⟨by decide, by decide, by decide⟩, by decide +kernel⟩
  exact ⟨hnumber, a, b, ht, hab, heq, htwo heq⟩

/-- A number near a third is shown as a third, and one near zero with the denominator one. -/
theorem fraction_inexact_near_third :
    let f : CellFormat := { fractions := some true }
    (f.fraction? {} 0.3333333333333 = some "1/3".toList ∧
      f.number {} 0.3333333333333 = "1/3".toList ∧
      Float.ofInt 1 / Float.ofInt 3 ≠ 0.3333333333333) ∧
    (f.fraction? {} 1e-13 = some "0/1".toList ∧ f.number {} 1e-13 = "0/1".toList) := by
  refine ⟨⟨by decide +kernel, by decide +kernel, fun h => ?_⟩, by decide +kernel, by decide +kernel⟩
  exact absurd (congrArg Float.toBits h) (by decide +kernel)

end CellFormat

end Rollup
