import Rollup.Number.Numeral
import Rollup.Proofs.Double.Rounding
import Rollup.Proofs.Double.Sign

/-! # Reading decimals

A decimal that lies in the interval of rounding of a double reads as that double, whatever its
number of digits.
-/

namespace Rollup.Number

open Float.Model
open Float.Model.UnpackedFloat (Sign Accuracy)

/-! ## Products and quotients -/

theorem locates_div (num : ℕ) {den : ℕ} (hden : 0 < den) :
    Locates (num / den) ((num : ℚ) / den)
      (UnpackedFloat.accuracyOfFraction (num % den) den) := by
  have hden' : (0 : ℚ) < den := by exact_mod_cast hden
  have hnum : (num : ℚ) / den = (num / den : ℕ) + ((num % den : ℕ) : ℚ) / den := by
    rw [div_eq_iff hden'.ne', add_mul, div_mul_cancel₀ _ hden'.ne', mul_comm]
    exact_mod_cast (Nat.div_add_mod num den).symm
  have hlt : ((num % den : ℕ) : ℚ) / den < 1 := by
    rw [div_lt_one hden']
    exact_mod_cast Nat.mod_lt num hden
  rw [hnum]
  unfold UnpackedFloat.accuracyOfFraction
  split
  case isTrue h => simp [Locates, h]
  case isFalse h =>
    have hpos : (0 : ℚ) < ((num % den : ℕ) : ℚ) / den :=
      div_pos (by exact_mod_cast Nat.pos_of_ne_zero h) hden'
    have hhalf : (2 : ℚ) * (((num % den : ℕ) : ℚ) / den) = (2 * (num % den) : ℕ) / den := by
      push_cast
      ring
    cases hcmp : compare (2 * (num % den)) den with
    | lt =>
      have h1 : ((2 * (num % den) : ℕ) : ℚ) / den < 1 := by
        rw [div_lt_one hden']
        exact_mod_cast Nat.compare_eq_lt.mp hcmp
      exact ⟨by linarith, by linarith⟩
    | eq =>
      have h1 : ((2 * (num % den) : ℕ) : ℚ) / den = 1 := by
        rw [div_eq_one_iff_eq hden'.ne']
        exact_mod_cast Nat.compare_eq_eq.mp hcmp
      change _ = _
      linarith
    | gt =>
      have h1 : 1 < ((2 * (num % den) : ℕ) : ℚ) / den := by
        rw [one_lt_div hden']
        exact_mod_cast Nat.compare_eq_gt.mp hcmp
      exact ⟨by linarith, by linarith⟩

section Operations

variable {s₁ s₂ : Sign} {m₁ m₂ : ℕ} {e₁ e₂ : ℤ} (h₁ : 0 < m₁) (h₂ : 0 < m₂)

theorem isRounded_mul (hlog : e₁ + e₂ ≤ -1074 ∨ 52 ≤ (m₁ * m₂).log2) :
    IsRounded (s₁ * s₂) (m₁ * 2 ^ e₁ * (m₂ * 2 ^ e₂))
      (UnpackedFloat.mul Format.binary64 (.finite s₁ m₁ e₁ h₁) (.finite s₂ m₂ e₂ h₂)) := by
  refine ⟨m₁ * m₂, e₁ + e₂, .exact, (m₁ * m₂ : ℕ), rfl, ?_, ?_, ?_, rfl⟩
  · rw [targetExponent_eq, totalExponent]
    omega
  · exact_mod_cast Nat.mul_pos h₁ h₂
  · rw [zpow_add₀ two_ne_zero]
    push_cast
    ring

variable (e₁ e₂) in
include h₁ h₂ in
/-- The quotient has at least 53 binary digits, or fewer when the result is subnormal. -/
theorem divCore_exponent_le :
    (UnpackedFloat.divCore Format.binary64 m₁ e₁ m₂ e₂).2.1 ≤ Format.binary64.targetExponent
      (totalExponent (UnpackedFloat.divCore Format.binary64 m₁ e₁ m₂ e₂).1
        (UnpackedFloat.divCore Format.binary64 m₁ e₁ m₂ e₂).2.1) := by
  simp only [UnpackedFloat.divCore, targetExponent_eq, totalExponent]
  obtain ⟨t, ht⟩ : ∃ t, min (e₁ - e₂) (max ((m₁.log2 : ℤ) + 1 + e₁ - (m₂.log2 + 1 + e₂) - 53)
    (-1074)) = t := ⟨_, rfl⟩
  rw [ht]
  by_cases hsub : t ≤ -1074
  · omega
  have hshift : m₂.log2 + 53 ≤ m₁.log2 + (e₁ - e₂ - t).toNat := by omega
  have hq : 2 ^ 52 ≤ m₁ <<< (e₁ - e₂ - t).toNat / m₂ := by
    rw [Nat.le_div_iff_mul_le h₂, Nat.shiftLeft_eq]
    calc 2 ^ 52 * m₂ ≤ 2 ^ 52 * 2 ^ (m₂.log2 + 1) :=
          Nat.mul_le_mul_left _ Nat.lt_log2_self.le
      _ = 2 ^ (m₂.log2 + 53) := by rw [← pow_add]; congr 1; omega
      _ ≤ 2 ^ (m₁.log2 + (e₁ - e₂ - t).toNat) := Nat.pow_le_pow_right two_pos hshift
      _ = 2 ^ m₁.log2 * 2 ^ (e₁ - e₂ - t).toNat := pow_add ..
      _ ≤ m₁ * 2 ^ (e₁ - e₂ - t).toNat := Nat.mul_le_mul_right _ (Nat.log2_self_le h₁.ne')
  have hlog := (Nat.le_log2 (by omega)).mpr hq
  omega

theorem isRounded_div : IsRounded (s₁ / s₂) (m₁ * 2 ^ e₁ / (m₂ * 2 ^ e₂))
    (UnpackedFloat.div Format.binary64 (.finite s₁ m₁ e₁ h₁) (.finite s₂ m₂ e₂ h₂)) := by
  obtain ⟨t, ht⟩ : ∃ t, min (e₁ - e₂) (max ((m₁.log2 : ℤ) + 1 + e₁ - (m₂.log2 + 1 + e₂) - 53)
    (-1074)) = t := ⟨_, rfl⟩
  have hcore : UnpackedFloat.divCore Format.binary64 m₁ e₁ m₂ e₂ =
      (m₁ <<< (e₁ - e₂ - t).toNat / m₂, t,
        UnpackedFloat.accuracyOfFraction (m₁ <<< (e₁ - e₂ - t).toNat % m₂) m₂) := by
    rw [← ht]
    rfl
  have hexponent := divCore_exponent_le e₁ e₂ h₁ h₂
  have hshift : 0 < m₁ <<< (e₁ - e₂ - t).toNat := by
    rw [Nat.shiftLeft_eq]
    positivity
  rw [hcore] at hexponent
  refine ⟨_, _, _, _, locates_div _ h₂, hexponent, ?_, ?_, ?_⟩
  · exact div_pos (by exact_mod_cast hshift) (by exact_mod_cast h₂)
  · have hpow : (2 : ℚ) ^ (e₁ - e₂ - t).toNat * 2 ^ t = 2 ^ e₁ / 2 ^ e₂ := by
      rw [← zpow_natCast, ← zpow_add₀ two_ne_zero, ← zpow_sub₀ two_ne_zero]
      congr 1
      omega
    rw [Nat.shiftLeft_eq]
    push_cast
    calc (m₁ : ℚ) * 2 ^ (e₁ - e₂ - t).toNat / m₂ * 2 ^ t
        = m₁ / m₂ * (2 ^ (e₁ - e₂ - t).toNat * 2 ^ t) := by ring
      _ = m₁ * 2 ^ e₁ / (m₂ * 2 ^ e₂) := by rw [hpow, mul_div_mul_comm]
  · rw [UnpackedFloat.div, hcore]

end Operations

/-! ## Whole numbers below 2^53 -/

theorem canonical_shiftLeft {m : ℕ} (hm : 0 < m) (hlt : m < 2 ^ 53) :
    Canonical (m <<< (52 - m.log2)) (-(52 - m.log2 : ℕ)) := by
  have hlog : m.log2 < 53 := (Nat.log2_lt hm.ne').mpr hlt
  have hlow : 2 ^ m.log2 ≤ m := Nat.log2_self_le hm.ne'
  have hhigh : m < 2 ^ (m.log2 + 1) := Nat.lt_log2_self
  have hle : 2 ^ 52 ≤ m <<< (52 - m.log2) := by
    calc 2 ^ 52 = 2 ^ m.log2 * 2 ^ (52 - m.log2) := by rw [← pow_add]; congr 1; omega
      _ ≤ m * 2 ^ (52 - m.log2) := Nat.mul_le_mul_right _ hlow
      _ = _ := (Nat.shiftLeft_eq ..).symm
  refine ⟨by omega, ?_, by omega, by omega, .inl hle⟩
  calc m <<< (52 - m.log2) = m * 2 ^ (52 - m.log2) := Nat.shiftLeft_eq ..
    _ < 2 ^ (m.log2 + 1) * 2 ^ (52 - m.log2) := Nat.mul_lt_mul_of_pos_right hhigh (by positivity)
    _ = 2 ^ 53 := by rw [← pow_add]; congr 1; omega

theorem shiftLeft_value (m n : ℕ) : ((m <<< n : ℕ) : ℚ) * 2 ^ (-(n : ℤ)) = m := by
  rw [Nat.shiftLeft_eq, zpow_neg, zpow_natCast]
  push_cast
  field_simp

theorem holds_self {b : Binary64} (hb : 0 < b.mantissa) :
    (Interval.of b).Holds (b.mantissa * 2 ^ b.exponent) := by
  have hE : (0 : ℚ) < 2 ^ b.exponent := by positivity
  have hlow : (b.mantissa - below b) * 2 ^ b.exponent < b.mantissa * 2 ^ b.exponent :=
    mul_lt_mul_of_pos_right (by linarith [below_pos b]) hE
  have hhigh : b.mantissa * 2 ^ b.exponent < (b.mantissa + 1 / 2 : ℚ) * 2 ^ b.exponent :=
    mul_lt_mul_of_pos_right (by linarith) hE
  unfold Interval.Holds
  rw [low_eq b hb, high_eq]
  split_ifs
  · exact ⟨hlow.le, hhigh.le⟩
  · exact ⟨hlow, hhigh⟩

theorem round_finite {m : ℕ} (hm : 0 < m) (hlt : m < 2 ^ 53) :
    UnpackedFloat.round Format.binary64 .positive m 0 =
      .finite .positive (m <<< (52 - m.log2)) (-(52 - m.log2 : ℕ))
        (canonical_shiftLeft hm hlt).pos := by
  have hcan := canonical_shiftLeft hm hlt
  have hlog : m.log2 < 53 := (Nat.log2_lt hm.ne').mpr hlt
  have hshift : (0 - max ((m.log2 : ℤ) + 1 + 0 - 53) (-1074)).toNat = 52 - m.log2 := by omega
  have hlog' : (m <<< (52 - m.log2)).log2 = 52 :=
    log2_eq_52 (hcan.full.resolve_right (by omega)) hcan.small
  simp only [UnpackedFloat.round, UnpackedFloat.decreaseExponent, targetExponent_eq, totalExponent,
    hshift]
  rw [zero_sub]
  refine roundWithAccuracy_eq (b := ⟨false, _, _⟩) .positive hcan.normalized
    (rfl : Locates _ _ .exact) ?_
    (holds_self hcan.pos)
  rw [targetExponent_eq, totalExponent, hlog']
  omega

theorem view_toFloat {m : ℕ} (hm : 0 < m) (hlt : m < 2 ^ 53) :
    view m.toUInt64.toFloat = .finite .positive (m <<< (52 - m.log2)) (-(52 - m.log2 : ℕ))
      (canonical_shiftLeft hm hlt).pos := by
  have hnat : m.toUInt64.toNat = m := UInt64.toNat_ofNat_of_lt' (lt_trans hlt (by decide))
  have hfloat : m.toUInt64.toFloat =
      assemble (UnpackedFloat.normalize Format.binary64 m.toUInt64.toNat 0 .positive) := rfl
  have hgt : compare (m : ℤ) 0 = .gt := by
    rw [Int.compare_eq_gt]
    omega
  rw [hfloat, hnat, UnpackedFloat.normalize, hgt]
  dsimp only
  rw [Int.toNat_natCast, round_finite hm hlt]
  exact view_assemble_of_proper (f := .finite ..) (canonical_shiftLeft hm hlt)

/-- Up to 10^22 the mantissa of a power of ten is exact. -/
theorem ten_value {k : ℕ} (hk : k < 23) : (tenMantissa k : ℚ) * 2 ^ tenExponent k = 10 ^ k := by
  have hdvd : ∀ k : Fin 23, 10 ^ k.1 * 2 ^ 52 % 2 ^ (10 ^ k.1).log2 = 0 := by decide
  have hmul : tenMantissa k * 2 ^ (10 ^ k).log2 = 10 ^ k * 2 ^ 52 :=
    Nat.div_mul_cancel (Nat.dvd_of_mod_eq_zero (hdvd ⟨k, hk⟩))
  have hcast : (tenMantissa k : ℚ) * 2 ^ (10 ^ k).log2 = 10 ^ k * 2 ^ 52 := by exact_mod_cast hmul
  rw [tenExponent, zpow_sub₀ two_ne_zero, zpow_natCast, ← mul_div_assoc, hcast]
  norm_num

/-! ## Bounds -/

section Reading

variable {b : Binary64} (hb : Canonical b.mantissa b.exponent) {v : ℚ}
  (hin : (Interval.of b).Holds v)
include hb hin

theorem le_of_holds : (2 : ℚ) ^ (-1075 : ℤ) ≤ v := by
  have hpos : (1 : ℚ) ≤ b.mantissa := by exact_mod_cast hb.pos
  calc (2 : ℚ) ^ (-1075 : ℤ) = 1 / 2 * 2 ^ (-1074 : ℤ) := by
        rw [show (-1075 : ℤ) = -1 + -1074 by rfl, zpow_add₀ two_ne_zero]
        norm_num
    _ ≤ 1 / 2 * 2 ^ b.exponent := by
        refine mul_le_mul_of_nonneg_left ?_ (by norm_num)
        exact zpow_le_zpow_right₀ one_le_two hb.least
    _ ≤ (b.mantissa - below b) * 2 ^ b.exponent := by
        refine mul_le_mul_of_nonneg_right ?_ (by positivity)
        linarith [below_le b]
    _ ≤ v := low_eq b hb.pos ▸ hin.le.1

theorem lt_of_holds : v < 2 ^ (1024 : ℤ) := by
  have hsmall : (b.mantissa : ℚ) + 1 ≤ 2 ^ 53 := by exact_mod_cast hb.small
  calc v ≤ (b.mantissa + 1 / 2) * 2 ^ b.exponent := high_eq b ▸ hin.le.2
    _ < 2 ^ 53 * 2 ^ b.exponent := by
        refine mul_lt_mul_of_pos_right ?_ (by positivity)
        linarith
    _ ≤ 2 ^ 53 * 2 ^ (971 : ℤ) := by
        refine mul_le_mul_of_nonneg_left ?_ (by positivity)
        exact zpow_le_zpow_right₀ one_le_two hb.most
    _ = 2 ^ (1024 : ℤ) := by
        rw [show (1024 : ℤ) = 53 + 971 by rfl, zpow_add₀ two_ne_zero, zpow_ofNat 2 53]

end Reading

/-! ## Decimals -/

theorem two_zpow_le_ten_zpow {e : ℤ} (he : 0 ≤ e) : (2 : ℚ) ^ e ≤ 10 ^ e :=
  zpow_le_zpow_left₀ he (by norm_num) (by norm_num)

theorem ten_zpow_le_two_zpow {e : ℤ} (he : e ≤ 0) : (10 : ℚ) ^ e ≤ 2 ^ e := by
  have h := two_zpow_le_ten_zpow (neg_nonneg.mpr he)
  rw [zpow_neg, zpow_neg] at h
  exact (inv_le_inv₀ (by positivity) (by positivity)).mp h

section Scientific

variable {b : Binary64} (hb : Canonical b.mantissa b.exponent) {m : ℕ} (hm : 0 < m)
include hb hm

theorem decimal_lt {e : ℤ} (hin : (Interval.of b).Holds (m * 10 ^ e)) : e < 1024 := by
  by_contra he
  have hm' : (1 : ℚ) ≤ m := by exact_mod_cast hm
  have h1 : (2 : ℚ) ^ e ≤ m * 10 ^ e :=
    le_trans (two_zpow_le_ten_zpow (by omega)) (le_mul_of_one_le_left (by positivity) hm')
  have h2 := lt_of_two_zpow_lt h1 (lt_of_holds hb hin)
  omega

omit hm in
theorem lt_decimal {e : ℤ} (hin : (Interval.of b).Holds (m * 10 ^ e)) :
    -1076 - (m.log2 : ℤ) < e := by
  by_contra he
  have hm' : (m : ℚ) < 2 ^ (m.log2 + 1) := by exact_mod_cast Nat.lt_log2_self
  have h1 : m * 10 ^ e < (2 : ℚ) ^ ((m.log2 : ℤ) + 1 + e) := by
    calc (m : ℚ) * 10 ^ e ≤ m * 2 ^ e :=
          mul_le_mul_of_nonneg_left (ten_zpow_le_two_zpow (by omega)) (Nat.cast_nonneg _)
      _ < 2 ^ (m.log2 + 1) * 2 ^ e := mul_lt_mul_of_pos_right hm' (by positivity)
      _ = 2 ^ ((m.log2 : ℤ) + 1 + e) := by
          rw [zpow_add₀ two_ne_zero, ← Nat.cast_succ, zpow_natCast]
  have h2 := lt_of_two_zpow_lt (le_of_holds hb hin) h1
  omega

theorem unpacked_ofScientific_eq {e : ℤ} (hin : (Interval.of b).Holds (m * 10 ^ e)) :
    UnpackedFloat.ofScientific Format.binary64 m e =
      .finite .positive b.mantissa b.exponent hb.pos := by
  have hhigh := decimal_lt hb hm hin
  have hlow := lt_decimal hb hin
  have hten : 0 < 10 ^ e.toNat := by positivity
  unfold UnpackedFloat.ofScientific
  rw [dif_neg hm.ne', if_neg (by norm_num; omega), if_neg (by norm_num; omega)]
  split
  case isTrue he =>
    have hexp : (10 : ℚ) ^ e = 10 ^ e.toNat := by
      rw [← zpow_natCast, Int.toNat_of_nonneg he]
    refine (isRounded_mul _ _ (.inr ?_)).eq_finite hb.normalized ?_
    · rw [Nat.shiftLeft_eq, Nat.le_log2 (by positivity)]
      change 2 ^ 52 ≤ m * 2 ^ 53 * 10 ^ e.toNat
      calc 2 ^ 52 ≤ 1 * 2 ^ 53 * 1 := by norm_num
        _ ≤ m * 2 ^ 53 * 10 ^ e.toNat := Nat.mul_le_mul (Nat.mul_le_mul_right _ hm) hten
    · convert hin using 1
      rw [Nat.shiftLeft_eq, hexp]
      change ((m * 2 ^ 53 : ℕ) : ℚ) * 2 ^ (-53 : ℤ) * ((10 ^ e.toNat : ℕ) * 2 ^ (0 : ℤ)) = _
      push_cast
      rw [zpow_neg, zpow_ofNat]
      ring
  case isFalse he =>
    have hexp : (10 : ℚ) ^ e = 1 / 10 ^ (-e).toNat := by
      rw [← zpow_natCast, Int.toNat_of_nonneg (by omega), zpow_neg, one_div, inv_inv]
    refine (isRounded_div _ _).eq_finite hb.normalized ?_
    convert hin using 1
    rw [hexp, zpow_zero]
    push_cast
    ring

/-- Whether the two factors are doubles themselves or the product is rounded from whole numbers. -/
theorem ofScientific_eq {s : Bool} {k : ℕ} {e : ℤ} (he : e = if s then -(k : ℤ) else k)
    (hin : (Interval.of b).Holds (m * 10 ^ e)) :
    OfScientific.ofScientific m s k =
      assemble (.finite .positive b.mantissa b.exponent hb.pos) := by
  change Float.ofScientific m s k = _
  unfold Float.ofScientific
  split
  case isTrue h =>
    -- Both factors are doubles, so that only the operation rounds.
    have hcan := canonical_shiftLeft hm h.1
    have hfull : 2 ^ 52 ≤ m <<< (52 - m.log2) := hcan.full.resolve_right (by omega)
    have hten := view_powerOfTen k (by omega)
    cases s with
    | false =>
      rw [if_neg Bool.false_ne_true, mul_eq, view_toFloat hm h.1]
      refine congrArg assemble ((congrArg _ hten).trans
        ((isRounded_mul _ _ (.inr ?_)).eq_finite hb.normalized ?_))
      · rw [Nat.le_log2 (Nat.mul_pos hcan.pos (tenMantissa_pos k)).ne']
        exact le_trans hfull (Nat.le_mul_of_pos_right _ (tenMantissa_pos k))
      · rw [shiftLeft_value, ten_value (by omega)]
        simpa [he] using hin
    | true =>
      rw [if_pos rfl, div_eq, view_toFloat hm h.1]
      refine congrArg assemble ((congrArg _ hten).trans
        ((isRounded_div _ _).eq_finite hb.normalized ?_))
      rw [shiftLeft_value, ten_value (by omega)]
      simpa [he, zpow_neg, div_eq_mul_inv] using hin
  case isFalse =>
    -- The exact product or quotient of whole numbers is rounded.
    refine congrArg assemble ?_
    have he' : (if s then Int.negOfNat k else Int.ofNat k) = e := by
      rw [he]
      cases s
      · rfl
      · exact Int.negOfNat_eq
    rw [he']
    exact unpacked_ofScientific_eq hb hm hin

end Scientific

/-! ## Sizes -/

theorem lt_ten_pow_length (n : ℕ) : n < 10 ^ (Text.ofNat n).length :=
  (Nat.length_toDigits_le_iff (by decide) Nat.length_toDigits_pos).mp le_rfl

theorem ten_pow_length_le {n : ℕ} (hn : 0 < n) : 10 ^ ((Text.ofNat n).length - 1) ≤ n := by
  by_contra h
  by_cases hlen : (Text.ofNat n).length - 1 = 0
  · rw [hlen] at h
    omega
  · have := (Nat.length_toDigits_le_iff (by decide) (by omega)).mpr (Nat.lt_of_not_le h)
    change (Text.ofNat n).length ≤ _ at this
    omega

theorem two_pow_lt_ten_pow : (2 : ℚ) ^ (1090 : ℤ) < 10 ^ (330 : ℤ) := by
  have h : (2 : ℚ) ^ 109 < 10 ^ 33 := by norm_num
  have h' := pow_lt_pow_left₀ h (by positivity) (show 10 ≠ 0 by decide)
  rwa [← pow_mul, ← pow_mul] at h'

section Size

variable {b : Binary64} (hb : Canonical b.mantissa b.exponent) {m : ℕ} (hm : 0 < m) {e : ℤ}
  (hin : (Interval.of b).Holds (m * 10 ^ e))
include hb hin

theorem le_size : -330 ≤ ((Text.ofNat m).length : ℤ) + e := by
  by_contra h
  have hm' : (m : ℚ) < 10 ^ (Text.ofNat m).length := by exact_mod_cast lt_ten_pow_length m
  have h1 : (m : ℚ) * 10 ^ e < 10 ^ (-330 : ℤ) := by
    calc (m : ℚ) * 10 ^ e < 10 ^ (Text.ofNat m).length * 10 ^ e :=
          mul_lt_mul_of_pos_right hm' (by positivity)
      _ = 10 ^ (((Text.ofNat m).length : ℤ) + e) := by
          rw [zpow_add₀ (by norm_num), zpow_natCast]
      _ ≤ 10 ^ (-330 : ℤ) := zpow_le_zpow_right₀ (by norm_num) (by omega)
  have h2 : (10 : ℚ) ^ (-330 : ℤ) < 2 ^ (-1090 : ℤ) := by
    rw [zpow_neg, zpow_neg]
    exact (inv_lt_inv₀ (by positivity) (by positivity)).mpr two_pow_lt_ten_pow
  have h3 := lt_of_two_zpow_lt (le_of_holds hb hin) (h1.trans h2)
  omega

include hm in
theorem size_le : ((Text.ofNat m).length : ℤ) + e ≤ 330 := by
  by_contra h
  have hm' : (10 : ℚ) ^ ((Text.ofNat m).length - 1) ≤ m := by exact_mod_cast ten_pow_length_le hm
  have hlen : 0 < (Text.ofNat m).length := Nat.length_toDigits_pos
  have h1 : (10 : ℚ) ^ (330 : ℤ) ≤ m * 10 ^ e := by
    calc (10 : ℚ) ^ (330 : ℤ) ≤ 10 ^ (((Text.ofNat m).length - 1 : ℕ) + e) :=
          zpow_le_zpow_right₀ (by norm_num) (by omega)
      _ = 10 ^ ((Text.ofNat m).length - 1) * 10 ^ e := by
          rw [zpow_add₀ (by norm_num), zpow_natCast]
      _ ≤ m * 10 ^ e := mul_le_mul_of_nonneg_right hm' (by positivity)
  have h2 := lt_of_two_zpow_lt (two_pow_lt_ten_pow.le.trans h1) (lt_of_holds hb hin)
  omega

include hm in
/-- A decimal in the interval of a double reads as it. -/
theorem ofDecimal_eq :
    ofDecimal m e = assemble (.finite .positive b.mantissa b.exponent hb.pos) := by
  have hlow := le_size hb hin
  have hhigh := size_le hb hm hin
  unfold ofDecimal
  dsimp only
  rw [if_neg (by omega), if_neg (by omega)]
  split
  case isTrue he => exact ofScientific_eq hb hm (by simp [he]) hin
  case isFalse he => exact ofScientific_eq hb hm (by simp; omega) hin

end Size

end Rollup.Number
