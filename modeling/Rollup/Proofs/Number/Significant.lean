import Rollup.Proofs.Number.Amount
import Rollup.Proofs.Number.Nearest

/-! # Rounding to significant digits

Scientific notation rounds to a number of significant digits. Where the digits round up to a power of
ten the exponent is one more, and rounding once more with the digits that this leaves changes nothing.
-/

namespace Rollup.Number

/-- The number rounded to `p` significant digits; a tie goes to the even last digit. -/
def roundSignificant (p : ℕ) (q : ℚ) : ℚ :=
  nearestEven (q / 10 ^ (Int.log 10 |q| + 1 - p)) * 10 ^ (Int.log 10 |q| + 1 - p)

@[simp] theorem roundSignificant_neg (p : ℕ) (q : ℚ) :
    roundSignificant p (-q) = -roundSignificant p q := by
  rw [roundSignificant, abs_neg, neg_div, nearestEven_neg, Int.cast_neg, neg_mul, roundSignificant]

/-- The exponent of the number in scientific notation with `p` significant digits. -/
def roundedExponent (p : ℕ) (q : ℚ) : ℤ := Int.log 10 (roundSignificant p |q|)

/-- A number with `places + 1` digits, its first digit at the power `exponent`. -/
theorem log_mul_zpow {digits places : ℕ} (hlow : 10 ^ places ≤ digits)
    (hhigh : digits < 10 ^ (places + 1)) (exponent : ℤ) :
    Int.log 10 (digits * 10 ^ (exponent - places) : ℚ) = exponent := by
  have hunit : (0 : ℚ) < 10 ^ (exponent - places) := by positivity
  have hdigits : (0 : ℚ) < digits := by
    exact_mod_cast lt_of_lt_of_le (by positivity : 0 < 10 ^ places) hlow
  have hscale (k : ℕ) : (10 : ℚ) ^ k * 10 ^ (exponent - places) = 10 ^ (exponent - places + k) := by
    rw [zpow_add₀ (by norm_num), zpow_natCast, mul_comm]
  apply le_antisymm
  · have h := mul_lt_mul_of_pos_right (Nat.cast_lt (α := ℚ).mpr hhigh) hunit
    rw [Nat.cast_pow, Nat.cast_ofNat, hscale, Nat.cast_succ, ← add_assoc, sub_add_cancel] at h
    exact Int.lt_add_one_iff.mp
      ((Int.lt_zpow_iff_log_lt (b := 10) (by decide) (mul_pos hdigits hunit)).mp h)
  · have h := mul_le_mul_of_nonneg_right (Nat.cast_le (α := ℚ).mpr hlow) hunit.le
    rw [Nat.cast_pow, Nat.cast_ofNat, hscale, sub_add_cancel] at h
    exact (Int.zpow_le_iff_le_log (b := 10) (by decide) (mul_pos hdigits hunit)).mp h

section Fraction

variable {num den : ℕ} (hnum : 0 < num) (hden : 0 < den)

include hnum hden

theorem decimalExponent_eq : decimalExponent num den = Int.log 10 (num / den : ℚ) := by
  have hnum' : (0 : ℚ) < num := by exact_mod_cast hnum
  have hden' : (0 : ℚ) < den := by exact_mod_cast hden
  have hpos : (0 : ℚ) < num / den := div_pos hnum' hden'
  apply le_antisymm
  · exact (Int.zpow_le_iff_le_log (b := 10) (by decide) hpos).mp
      (ten_zpow_decimalExponent_le hnum hden)
  · have hlt := (Int.lt_zpow_iff_log_lt (b := 10) (by decide) hpos).mp
      (lt_ten_zpow_decimalExponent hnum hden)
    omega

theorem roundSignificant_eq (places : ℕ) : roundSignificant (places + 1) (num / den) =
    nearestEven (num / den * 10 ^ (places - decimalExponent num den)) *
      10 ^ (decimalExponent num den - places) := by
  have hunit : Int.log 10 |(num / den : ℚ)| + 1 - (places + 1 : ℕ) =
      decimalExponent num den - places := by
    rw [abs_of_nonneg (by positivity), ← decimalExponent_eq hnum hden]
    push_cast
    ring
  rw [roundSignificant, hunit, div_eq_mul_inv (num / den : ℚ), ← zpow_neg, neg_sub]

/-- The digits of scientific notation, in which the exponent goes up when they get one too many. -/
theorem scientific_round_eq (places : ℕ) : ∃ digits : ℕ,
    (digits : ℤ) = nearestEven (num / den * 10 ^ (places - decimalExponent num den)) ∧
      Scientific.round places num den =
        if digits = 10 ^ (places + 1) then ⟨10 ^ places, places, decimalExponent num den + 1⟩
        else ⟨digits, places, decimalExponent num den⟩ := by
  obtain ⟨n, d, hnd⟩ : ∃ n d, shiftDecimal num den (places - decimalExponent num den) = (n, d) :=
    ⟨_, _, rfl⟩
  have hd : 0 < d := by
    have h : d = den * 10 ^ (-(places - decimalExponent num den)).toNat :=
      (congrArg Prod.snd hnd).symm
    rw [h]
    positivity
  have hshift := shiftDecimal_div num den (places - decimalExponent num den)
  rw [hnd] at hshift
  refine ⟨roundDiv n d, by rw [roundDiv_eq n hd, hshift], ?_⟩
  unfold Scientific.round
  rw [if_neg hnum.ne']
  dsimp only
  rw [hnd]
  rfl

theorem value_round (places : ℕ) :
    (Scientific.round places num den).value = roundSignificant (places + 1) (num / den) := by
  obtain ⟨digits, hdigits, hround⟩ := scientific_round_eq hnum hden places
  rw [hround, roundSignificant_eq hnum hden, ← hdigits, Int.cast_natCast]
  split
  case isTrue hten =>
    rw [Scientific.value, hten]
    push_cast
    rw [← zpow_natCast, ← zpow_natCast, ← zpow_add₀ (by norm_num), ← zpow_add₀ (by norm_num)]
    congr 1
    push_cast
    ring
  case isFalse => rfl

/-- Between two powers of ten the rounded digits stay between them. -/
theorem nearestEven_digits_bounds (places : ℕ) :
    (10 ^ places : ℤ) ≤ nearestEven (num / den * 10 ^ (places - decimalExponent num den)) ∧
      nearestEven (num / den * 10 ^ (places - decimalExponent num den)) ≤ 10 ^ (places + 1) := by
  have hnear := isNearestEven_nearestEven (num / den * 10 ^ (places - decimalExponent num den))
  have hpos : (0 : ℚ) < 10 ^ (places - decimalExponent num den) := by positivity
  have hlow := mul_le_mul_of_nonneg_right (ten_zpow_decimalExponent_le hnum hden) hpos.le
  have hhigh := (mul_lt_mul_of_pos_right (lt_ten_zpow_decimalExponent hnum hden) hpos).le
  rw [← zpow_add₀ (by norm_num), add_sub_cancel, zpow_natCast] at hlow
  rw [← zpow_add₀ (by norm_num), show decimalExponent num den + 1 + (places - decimalExponent num den)
    = (places + 1 : ℕ) by push_cast; ring, zpow_natCast] at hhigh
  exact ⟨hnear.le (by exact_mod_cast hlow), hnear.ge (by exact_mod_cast hhigh)⟩

theorem exponent_round (places : ℕ) : (Scientific.round places num den).exponent =
    Int.log 10 (roundSignificant (places + 1) (num / den)) := by
  obtain ⟨digits, hdigits, hround⟩ := scientific_round_eq hnum hden places
  obtain ⟨hlow, hhigh⟩ := nearestEven_digits_bounds hnum hden places
  rw [← value_round hnum hden, hround]
  split
  case isTrue =>
    rw [Scientific.value, Nat.cast_pow, Nat.cast_ofNat, ← zpow_natCast, ← zpow_add₀ (by norm_num),
      add_sub_cancel]
    exact (Int.log_zpow (by decide) _).symm
  case isFalse hten =>
    rw [← hdigits] at hlow hhigh
    exact (log_mul_zpow (by exact_mod_cast hlow)
      (by exact_mod_cast lt_of_le_of_ne hhigh (by exact_mod_cast hten)) _).symm

/-- Fixed notation with the decimals that the exponent leaves rounds to the same number. -/
theorem fixed_value {places decimals : ℕ}
    (h : (decimals : ℤ) = places - (Scientific.round places num den).exponent) :
    roundDiv (num * 10 ^ decimals) den * (10 : ℚ) ^ (-(decimals : ℤ)) =
      roundSignificant (places + 1) (num / den) := by
  obtain ⟨digits, hdigits, hround⟩ := scientific_round_eq hnum hden places
  rw [roundSignificant_eq hnum hden]
  have hfixed : ((roundDiv (num * 10 ^ decimals) den : ℕ) : ℤ) =
      nearestEven (num / den * 10 ^ (decimals : ℤ)) := by
    rw [roundDiv_eq _ hden]
    congr 1
    push_cast
    rw [zpow_natCast]
    ring
  have hcast : ((roundDiv (num * 10 ^ decimals) den : ℕ) : ℚ) =
      nearestEven (num / den * 10 ^ (decimals : ℤ)) := by exact_mod_cast hfixed
  rw [hround] at h
  rw [hcast]
  split at h
  case isTrue hten =>
    -- With one digit less the number is even nearer to the power of ten.
    have hnear := (isNearestEven_nearestEven (num / den * 10 ^ (places - decimalExponent num den))).near
    have htenth : (num / den * 10 ^ (decimals : ℤ) : ℚ) =
        num / den * 10 ^ (places - decimalExponent num den) / 10 := by
      rw [h, ← sub_sub, zpow_sub_one₀ (by norm_num)]
      ring
    have hpow : nearestEven (num / den * 10 ^ (decimals : ℤ)) = (10 ^ places : ℕ) := by
      refine nearestEven_of_abs_lt ?_
      rw [← hdigits, hten] at hnear
      rw [htenth, abs_lt]
      rw [abs_le] at hnear
      push_cast at hnear ⊢
      rw [pow_succ] at hnear
      constructor <;> linarith
    rw [hpow, ← hdigits, hten, h]
    push_cast
    rw [← zpow_natCast, ← zpow_natCast, ← zpow_add₀ (by norm_num), ← zpow_add₀ (by norm_num)]
    congr 1
    push_cast
    ring
  case isFalse =>
    rw [h, neg_sub]

end Fraction

end Rollup.Number
