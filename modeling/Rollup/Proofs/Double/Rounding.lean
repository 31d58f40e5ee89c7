import Rollup.Number.Shortest
import Rollup.Proofs.Double.View

/-! # Rounding to the nearest double

A number is rounded to the double in whose interval of rounding it lies. Rounding works on a
mantissa that is too long and on what is known of the bits after it.
-/

namespace Rollup.Number

open Float.Model
open Float.Model.UnpackedFloat (Sign Accuracy ExtendedMantissa)

/-! ## The interval of rounding -/

/-- The number `v` lies in the interval. -/
def Interval.Holds (i : Interval) (v : ℚ) : Prop :=
  if i.closed then i.low * 2 ^ i.unit ≤ v ∧ v ≤ i.high * 2 ^ i.unit
  else i.low * 2 ^ i.unit < v ∧ v < i.high * 2 ^ i.unit

theorem zpow_eq_div (a : ℚ) (k : ℤ) : a ^ k = a ^ k.toNat / a ^ (-k).toNat := by
  rcases le_total 0 k with hk | hk
  · obtain ⟨n, rfl⟩ := Int.eq_ofNat_of_zero_le hk
    simp
  · obtain ⟨n, hn⟩ := Int.eq_ofNat_of_zero_le (neg_nonneg.mpr hk)
    obtain rfl : k = -n := by omega
    simp

/-- Both sides of the comparison are scaled by a common denominator. -/
theorem Interval.mem_iff (i : Interval) (digits : ℕ) (k : ℤ) :
    i.mem digits k ↔ i.Holds (digits * 10 ^ k) := by
  obtain ⟨S, hS, hscale, hfactor⟩ : ∃ S : ℚ, 0 < S ∧
      ((10 ^ (-k).toNat * 2 ^ i.unit.toNat : ℕ) : ℚ) = 2 ^ i.unit * S ∧
      ((10 ^ k.toNat * 2 ^ (-i.unit).toNat : ℕ) : ℚ) = 10 ^ k * S := by
    refine ⟨10 ^ (-k).toNat * 2 ^ (-i.unit).toNat, by positivity, ?_, ?_⟩
    · rw [zpow_eq_div 2 i.unit]
      push_cast
      field_simp
    · rw [zpow_eq_div 10 k]
      push_cast
      field_simp
  unfold Interval.mem Interval.Holds
  simp only [Nat.pow_eq]
  generalize 10 ^ (-k).toNat * 2 ^ i.unit.toNat = scale at hscale ⊢
  generalize 10 ^ k.toNat * 2 ^ (-i.unit).toNat = factor at hfactor ⊢
  have hle : ∀ m : ℕ, m * scale ≤ digits * factor ↔ (m : ℚ) * 2 ^ i.unit ≤ digits * 10 ^ k := by
    intro m
    rw [← Nat.cast_le (α := ℚ), Nat.cast_mul, Nat.cast_mul, hscale, hfactor, ← mul_assoc,
      ← mul_assoc, mul_le_mul_iff_left₀ hS]
  have hge : ∀ m : ℕ, digits * factor ≤ m * scale ↔ digits * 10 ^ k ≤ (m : ℚ) * 2 ^ i.unit := by
    intro m
    rw [← Nat.cast_le (α := ℚ), Nat.cast_mul, Nat.cast_mul, hscale, hfactor, ← mul_assoc,
      ← mul_assoc, mul_le_mul_iff_left₀ hS]
  split
  · rw [Bool.and_eq_true, decide_eq_true_iff, decide_eq_true_iff, hle, hge]
  · rw [Bool.and_eq_true, decide_eq_true_iff, decide_eq_true_iff, ← not_le, ← not_le, hle, hge,
      not_le, not_le]

/-! ## Mantissas that are too long -/

/-- The number `v` has the whole part `m`, and `a` tells where it lies above it. -/
def Locates (m : ℕ) (v : ℚ) : Accuracy → Prop
  | .exact => v = m
  | .inexact .lt => m < v ∧ v < m + 1 / 2
  | .inexact .eq => v = m + 1 / 2
  | .inexact .gt => m + 1 / 2 < v ∧ v < m + 1

theorem Locates.le {m : ℕ} {v : ℚ} {a : Accuracy} (h : Locates m v a) : m ≤ v := by
  rcases a with _ | (_ | _ | _) <;> simp only [Locates] at h <;> linarith

theorem Locates.lt {m : ℕ} {v : ℚ} {a : Accuracy} (h : Locates m v a) : v < m + 1 := by
  rcases a with _ | (_ | _ | _) <;> simp only [Locates] at h <;> linarith

/-- A tie goes to the even neighbour, so that the ends belong to it alone. -/
theorem Locates.roundToNearestEven {m M : ℕ} {v : ℚ} {a : Accuracy} (h : Locates m v a)
    (hlow : M - 1 / 2 ≤ v) (hhigh : v ≤ M + 1 / 2)
    (hodd : M % 2 = 1 → M - 1 / 2 < v ∧ v < M + 1 / 2) : a.roundToNearestEven m = M := by
  have hle : ∀ {x y : ℕ}, (x : ℚ) < y + 1 → x ≤ y := fun hxy => by
    exact Nat.lt_succ_iff.mp (by exact_mod_cast hxy)
  rcases a with _ | (_ | _ | _) <;> simp only [Locates] at h <;>
    simp only [Accuracy.roundToNearestEven]
  · exact le_antisymm (hle (by linarith)) (hle (by linarith))
  · exact le_antisymm (hle (by linarith)) (hle (by linarith))
  · have hMm : M ≤ m + 1 := hle (by push_cast; linarith)
    have hmM : m ≤ M := hle (by linarith)
    rcases Nat.mod_two_eq_zero_or_one M with hM | hM
    · omega
    · have h1 : m + 1 ≤ M + 1 := by omega
      have h2 : M ≤ m := hle (by linarith [(hodd hM).1])
      have h3 : m < M := by
        have := (hodd hM).2
        rw [h] at this
        have hlt : (m : ℚ) < M := by linarith
        exact_mod_cast hlt
      omega
  · exact le_antisymm (hle (by push_cast; linarith)) (hle (by push_cast; linarith))

theorem Locates.shiftRightOne {em : ExtendedMantissa} {v : ℚ}
    (h : Locates em.mantissa v em.accuracy) :
    Locates em.shiftRightOne.mantissa (v / 2) em.shiftRightOne.accuracy := by
  obtain ⟨m, r, s⟩ := em
  obtain ⟨q, rfl | rfl⟩ : ∃ q, m = 2 * q ∨ m = 2 * q + 1 := ⟨m / 2, by omega⟩
  · have hq : 2 * q / 2 = q := by omega
    have hbit : (2 * q % 2 != 0) = false := by simp
    cases r <;> cases s <;>
      simp only [ExtendedMantissa.accuracy, ExtendedMantissa.shiftRightOne, Locates, hq, hbit,
        Bool.or_false, Bool.or_true, Nat.cast_mul, Nat.cast_ofNat] at h ⊢ <;>
      first | linarith | exact ⟨by linarith, by linarith⟩
  · have hq : (2 * q + 1) / 2 = q := by omega
    have hbit : ((2 * q + 1) % 2 != 0) = true := by simp
    cases r <;> cases s <;>
      simp only [ExtendedMantissa.accuracy, ExtendedMantissa.shiftRightOne, Locates, hq, hbit,
        Bool.or_false, Bool.or_true, Nat.cast_add, Nat.cast_mul, Nat.cast_ofNat, Nat.cast_one]
        at h ⊢ <;>
      first | linarith | exact ⟨by linarith, by linarith⟩

theorem locates_ofMantissaAndAccuracy {m : ℕ} {v : ℚ} {a : Accuracy} (h : Locates m v a) :
    Locates (ExtendedMantissa.ofMantissaAndAccuracy m a).mantissa v
      (ExtendedMantissa.ofMantissaAndAccuracy m a).accuracy := by
  rcases a with _ | (_ | _ | _) <;> exact h

theorem Locates.shiftRight {em : ExtendedMantissa} {v : ℚ} (h : Locates em.mantissa v em.accuracy)
    (n : ℕ) : Locates (em >>> n).mantissa (v / 2 ^ n) (em >>> n).accuracy := by
  induction n with
  | zero =>
    rw [pow_zero, div_one]
    exact h
  | succ n ih =>
    rw [pow_succ, ← div_div]
    exact ih.shiftRightOne

/-! ## Rounding -/

theorem targetExponent_eq (e : ℤ) :
    Format.binary64.targetExponent e = max (e - 53) (-1074) := rfl

/-- The whole part has as many binary digits as the number. -/
theorem two_pow_log2_le {m : ℕ} {v : ℚ} (hm : m ≠ 0) (hle : m ≤ v) : 2 ^ m.log2 ≤ v := by
  have h : ((2 ^ m.log2 : ℕ) : ℚ) ≤ m := by exact_mod_cast Nat.log2_self_le hm
  push_cast at h
  linarith

theorem lt_two_pow_log2 {m : ℕ} {v : ℚ} (hlt : v < m + 1) : v < 2 ^ (m.log2 + 1) := by
  have h : ((m + 1 : ℕ) : ℚ) ≤ (2 ^ (m.log2 + 1) : ℕ) := by exact_mod_cast Nat.lt_log2_self
  push_cast at h
  linarith

theorem Interval.Holds.le {i : Interval} {v : ℚ} (h : i.Holds v) :
    i.low * 2 ^ i.unit ≤ v ∧ v ≤ i.high * 2 ^ i.unit := by
  unfold Interval.Holds at h
  split at h
  · exact h
  · exact ⟨h.1.le, h.2.le⟩

theorem Interval.Holds.lt {i : Interval} {v : ℚ} (h : i.Holds v) (hopen : i.closed = false) :
    i.low * 2 ^ i.unit < v ∧ v < i.high * 2 ^ i.unit := by
  unfold Interval.Holds at h
  rwa [hopen, if_neg Bool.false_ne_true] at h

section Ends

variable (b : Binary64)

/-- A quarter or a half of the unit of the last place. -/
def below : ℚ := if b.mantissa = 2 ^ 52 ∧ -1074 < b.exponent then 1 / 4 else 1 / 2

theorem below_pos : 0 < below b := by
  unfold below
  split_ifs <;> norm_num

theorem below_le : below b ≤ 1 / 2 := by
  unfold below
  split_ifs <;> norm_num

theorem unit_eq : (2 : ℚ) ^ (Interval.of b).unit = 2 ^ b.exponent / 4 := by
  change (2 : ℚ) ^ (b.exponent - 2) = _
  rw [zpow_sub₀ (by norm_num)]
  norm_num

theorem low_eq (hb : 0 < b.mantissa) :
    (Interval.of b).low * (2 : ℚ) ^ (Interval.of b).unit =
      (b.mantissa - below b) * 2 ^ b.exponent := by
  rw [unit_eq]
  unfold Interval.of below
  simp only [Nat.pow_eq]
  split_ifs
  · rw [Nat.cast_sub (by omega)]
    push_cast
    ring
  · rw [Nat.cast_sub (by omega)]
    push_cast
    ring

theorem high_eq : (Interval.of b).high * (2 : ℚ) ^ (Interval.of b).unit =
    (b.mantissa + 1 / 2) * 2 ^ b.exponent := by
  rw [unit_eq]
  unfold Interval.of
  push_cast
  ring

end Ends

theorem shiftToTargetExponent_eq (m : ℕ) (e : ℤ) (a : Accuracy) :
    UnpackedFloat.shiftToTargetExponent Format.binary64 m e a =
      (ExtendedMantissa.ofMantissaAndAccuracy m a >>>
        (max (m.log2 + 1 + e - 53) (-1074) - e).toNat,
        e + (max (m.log2 + 1 + e - 53) (-1074) - e).toNat) := rfl

theorem shiftToTargetExponent_normalized {m : ℕ} {e : ℤ} (h : Normalized m e) :
    UnpackedFloat.shiftToTargetExponent Format.binary64 m e .exact = (⟨m, false, false⟩, e) := by
  obtain ⟨hpos, hsmall, hleast, -⟩ := h
  have hlog := (Nat.log2_lt hpos.ne').mpr hsmall
  have hzero : (max ((m.log2 : ℤ) + 1 + e - 53) (-1074) - e).toNat = 0 := by omega
  rw [shiftToTargetExponent_eq, hzero]
  exact congrArg _ (by omega)

theorem lt_of_two_zpow_lt {x y : ℤ} {v : ℚ} (hx : 2 ^ x ≤ v) (hy : v < 2 ^ y) : x < y :=
  (zpow_lt_zpow_iff_right₀ one_lt_two).mp (lt_of_le_of_lt hx hy)

theorem scaled_bounds {m : ℕ} {v : ℚ} (e : ℤ) (hm : m ≠ 0) (hle : m ≤ v) (hlt : v < m + 1) :
    (2 : ℚ) ^ ((m.log2 : ℤ) + e) ≤ v * 2 ^ e ∧ v * 2 ^ e < (2 : ℚ) ^ ((m.log2 : ℤ) + 1 + e) := by
  constructor
  · rw [zpow_add₀ two_ne_zero, zpow_natCast]
    exact mul_le_mul_of_nonneg_right (two_pow_log2_le hm hle) (by positivity)
  · rw [zpow_add₀ two_ne_zero, ← Nat.cast_succ, zpow_natCast]
    exact mul_lt_mul_of_pos_right (lt_two_pow_log2 hlt) (by positivity)

section Target

variable {M : ℕ} {E e : ℤ} {x v : ℚ}

/-- A number below one unit is in no interval but those of the smallest exponent. -/
theorem exponent_eq_of_lt_one (hfull : 2 ^ 52 ≤ M ∨ E = -1074) (hleast : -1074 ≤ E) (he : e ≤ -1074)
    (hlow : (M - 1 / 2) * 2 ^ E ≤ v * 2 ^ e) (hv : v < 1) : E = -1074 := by
  refine hfull.resolve_left fun hM => ?_
  have hone : (1 : ℚ) ≤ M - 1 / 2 := by
    have htwo : (2 : ℚ) ≤ M := by exact_mod_cast (by omega : 2 ≤ M)
    linarith
  have hpow : (2 : ℚ) ^ E ≤ v * 2 ^ e :=
    le_trans (le_mul_of_one_le_left (by positivity) hone) hlow
  have hlt := lt_of_two_zpow_lt hpow (mul_lt_of_lt_one_left (by positivity) hv)
  omega

/-- Only the interval of a power of two reaches below the powers of its exponent. -/
theorem mantissa_eq_of_lt (hfull : 2 ^ 52 ≤ M) (hlow : (M - 1 / 2) * 2 ^ E ≤ x)
    (hx : x < 2 ^ (52 + E)) : M = 2 ^ 52 := by
  rw [zpow_add₀ two_ne_zero] at hx
  have hlt := lt_of_mul_lt_mul_right (lt_of_le_of_lt hlow hx) (by positivity)
  have hM : (M : ℚ) < 2 ^ 52 + 1 := by linarith
  have hnat : M < 2 ^ 52 + 1 := by exact_mod_cast hM
  omega

end Target

/-- The exponent that a number is first rounded to is that of the double in whose interval it lies,
or one less just below a power of two. -/
theorem target_cases {m : ℕ} {e : ℤ} {v : ℚ} {b : Binary64}
    (hb : Normalized b.mantissa b.exponent) (hle : m ≤ v) (hlt : v < m + 1)
    (he : e ≤ max ((m.log2 : ℤ) + 1 + e - 53) (-1074))
    (hlow : (b.mantissa - below b) * 2 ^ b.exponent ≤ v * 2 ^ e)
    (hhigh : v * 2 ^ e ≤ (b.mantissa + 1 / 2) * 2 ^ b.exponent) :
    max ((m.log2 : ℤ) + 1 + e - 53) (-1074) = b.exponent ∨
      max ((m.log2 : ℤ) + 1 + e - 53) (-1074) = b.exponent - 1 ∧ b.mantissa = 2 ^ 52 ∧
        -1074 < b.exponent ∧ v * 2 ^ e < 2 ^ (52 + b.exponent) := by
  obtain ⟨neg, M, E⟩ := b
  obtain ⟨hpos, hsmall, hleast, hfull⟩ := hb
  dsimp only at *
  have hE : (0 : ℚ) < 2 ^ E := by positivity
  have hbelow := below_le ⟨neg, M, E⟩
  have hhalf : (M - 1 / 2) * 2 ^ E ≤ v * 2 ^ e :=
    le_trans (mul_le_mul_of_nonneg_right (by linarith) hE.le) hlow
  have hlt53 : v * 2 ^ e < 2 ^ (53 + E) := by
    have hM : (M : ℚ) + 1 ≤ 2 ^ 53 := by exact_mod_cast hsmall
    rw [zpow_add₀ two_ne_zero]
    refine lt_of_le_of_lt hhigh (mul_lt_mul_of_pos_right ?_ hE)
    rw [zpow_ofNat]
    linarith
  by_cases hm : m = 0
  · -- No binary digit is left of the point.
    subst hm
    rw [Nat.log2_zero] at he ⊢
    have hE := exponent_eq_of_lt_one hfull hleast (by omega) hhalf (by simpa using hlt)
    omega
  obtain ⟨hV1, hV2⟩ := scaled_bounds e hm hle hlt
  have hupper := lt_of_two_zpow_lt hV1 hlt53
  by_cases h52 : 2 ^ (52 + E) ≤ v * 2 ^ e
  · have hlower := lt_of_two_zpow_lt h52 hV2
    left
    omega
  · -- The number has fewer digits than the full mantissas of this exponent.
    rw [not_le] at h52
    have hupper' := lt_of_two_zpow_lt hV1 h52
    rcases hfull with hfull | hfull
    · have hM := mantissa_eq_of_lt hfull hhalf h52
      have h51 : (2 : ℚ) ^ (51 + E) ≤ v * 2 ^ e := by
        rw [zpow_add₀ two_ne_zero]
        refine le_trans (mul_le_mul_of_nonneg_right ?_ hE.le) hhalf
        rw [hM]
        norm_num
      have hlower := lt_of_two_zpow_lt h51 hV2
      rcases hleast.eq_or_lt with rfl | hE'
      · left
        omega
      · right
        exact ⟨by omega, hM, hE', h52⟩
    · left
      omega

theorem roundWithAccuracy_of_rounded (s : Sign) {m M : ℕ} {e t E : ℤ} {a : Accuracy}
    {em : ExtendedMantissa}
    (hfirst : UnpackedFloat.shiftToTargetExponent Format.binary64 m e a = (em, t))
    (hfinal : UnpackedFloat.shiftToTargetExponent Format.binary64 em.roundedMantissa t .exact =
      (⟨M, false, false⟩, E)) (hM : 0 < M) :
    UnpackedFloat.roundWithAccuracy Format.binary64 s m e a = .finite s M E hM := by
  simp only [UnpackedFloat.roundWithAccuracy, hfirst, hfinal]
  rw [dif_neg hM.ne']

/-- In units of the last place of a double, the numbers of its interval round to its mantissa. -/
theorem roundedMantissa_of_holds {em : ExtendedMantissa} {x : ℚ} {b : Binary64}
    (hb : 0 < b.mantissa) (hem : Locates em.mantissa (x / 2 ^ b.exponent) em.accuracy)
    (hin : (Interval.of b).Holds x) : em.roundedMantissa = b.mantissa := by
  have hE : (0 : ℚ) < 2 ^ b.exponent := by positivity
  have hbelow := below_le b
  have hends := hin.le
  rw [low_eq b hb, high_eq] at hends
  refine hem.roundToNearestEven ?_ ?_ fun hodd => ?_
  · rw [le_div_iff₀ hE]
    exact le_trans (mul_le_mul_of_nonneg_right (by linarith) hE.le) hends.1
  · rw [div_le_iff₀ hE]
    exact hends.2
  · have hclosed : (Interval.of b).closed = false := by
      change decide (b.mantissa % 2 = 0) = false
      rw [hodd]
      rfl
    have hopen := hin.lt hclosed
    rw [low_eq b hb, high_eq] at hopen
    rw [lt_div_iff₀ hE, div_lt_iff₀ hE]
    exact ⟨lt_of_le_of_lt (mul_le_mul_of_nonneg_right (by linarith) hE.le) hopen.1, hopen.2⟩

/-- Just below a power of two the unit is half as large, and the numbers round to twice as many. -/
theorem roundedMantissa_of_lt {em : ExtendedMantissa} {x : ℚ} {b : Binary64}
    (hem : Locates em.mantissa (x / 2 ^ (b.exponent - 1)) em.accuracy) (hM : b.mantissa = 2 ^ 52)
    (hlt : -1074 < b.exponent) (hlow : (b.mantissa - below b) * 2 ^ b.exponent ≤ x)
    (hx : x < 2 ^ (52 + b.exponent)) : em.roundedMantissa = 2 ^ 53 := by
  have hE : (0 : ℚ) < 2 ^ (b.exponent - 1) := by positivity
  have htwo : (2 : ℚ) ^ b.exponent = 2 * 2 ^ (b.exponent - 1) := by
    rw [← zpow_one_add₀ two_ne_zero]
    congr 1
    omega
  refine hem.roundToNearestEven ?_ ?_ fun hodd => absurd hodd (by decide)
  · have hbelow : below b = 1 / 4 := if_pos ⟨hM, hlt⟩
    rw [le_div_iff₀ hE]
    refine le_trans (le_of_eq ?_) hlow
    rw [hbelow, hM, htwo]
    push_cast
    ring
  · rw [div_le_iff₀ hE]
    refine le_trans hx.le ?_
    rw [zpow_add₀ two_ne_zero, htwo, zpow_ofNat]
    push_cast
    linarith

theorem shiftToTargetExponent_two_pow {E : ℤ} (h : -1074 < E) :
    UnpackedFloat.shiftToTargetExponent Format.binary64 (2 ^ 53) (E - 1) .exact =
      (⟨2 ^ 52, false, false⟩, E) := by
  have hone : (max (((2 ^ 53 : ℕ).log2 : ℤ) + 1 + (E - 1) - 53) (-1074) - (E - 1)).toNat = 1 := by
    rw [Nat.log2_two_pow]
    omega
  rw [shiftToTargetExponent_eq, hone]
  exact congrArg _ (by omega)

/-- The first step of rounding leaves as many digits as the target exponent allows. -/
theorem exists_shiftToTargetExponent {m : ℕ} {e t : ℤ} {a : Accuracy} {v : ℚ}
    (hloc : Locates m v a) (ht : max ((m.log2 : ℤ) + 1 + e - 53) (-1074) = t) (he : e ≤ t) :
    ∃ em : ExtendedMantissa, UnpackedFloat.shiftToTargetExponent Format.binary64 m e a = (em, t) ∧
      Locates em.mantissa (v * 2 ^ e / 2 ^ t) em.accuracy := by
  refine ⟨ExtendedMantissa.ofMantissaAndAccuracy m a >>> (t - e).toNat, ?_, ?_⟩
  · rw [shiftToTargetExponent_eq, ht]
    exact congrArg _ (by omega)
  · have hscale : v / 2 ^ (t - e).toNat = v * 2 ^ e / 2 ^ t := by
      rw [mul_div_assoc, ← zpow_sub₀ two_ne_zero, div_eq_mul_inv, ← zpow_natCast, ← zpow_neg]
      congr 2
      omega
    rw [← hscale]
    exact (locates_ofMantissaAndAccuracy hloc).shiftRight (t - e).toNat

/-- A number whose mantissa is long enough is rounded to the double in whose interval it lies. -/
theorem roundWithAccuracy_eq (s : Sign) {m : ℕ} {e : ℤ} {a : Accuracy} {v : ℚ} {b : Binary64}
    (hb : Normalized b.mantissa b.exponent) (hloc : Locates m v a)
    (he : e ≤ Format.binary64.targetExponent (totalExponent m e))
    (hin : (Interval.of b).Holds (v * 2 ^ e)) :
    UnpackedFloat.roundWithAccuracy Format.binary64 s m e a =
      .finite s b.mantissa b.exponent hb.pos := by
  change e ≤ max ((m.log2 : ℤ) + 1 + e - 53) (-1074) at he
  have hends := hin.le
  rw [low_eq b hb.pos, high_eq] at hends
  have htarget := target_cases hb hloc.le hloc.lt he hends.1 hends.2
  obtain ⟨em, hfirst, hshift⟩ := exists_shiftToTargetExponent hloc rfl he
  rcases htarget with ht | ⟨ht, hM, hlt, hx⟩ <;> rw [ht] at hfirst hshift <;>
    refine roundWithAccuracy_of_rounded s hfirst ?_ hb.pos
  · rw [roundedMantissa_of_holds hb.pos hshift hin]
    exact shiftToTargetExponent_normalized hb
  · rw [roundedMantissa_of_lt hshift hM hlt hends.1 hx, hM]
    exact shiftToTargetExponent_two_pow hlt

theorem target_of_le {m : ℕ} {e : ℤ} {v : ℚ} (hle : m ≤ v)
    (he : e ≤ max ((m.log2 : ℤ) + 1 + e - 53) (-1074)) (hsmall : v * 2 ^ e ≤ 2 ^ (-1075 : ℤ)) :
    max ((m.log2 : ℤ) + 1 + e - 53) (-1074) = -1074 := by
  by_cases hm : m = 0
  · subst hm
    rw [Nat.log2_zero] at he ⊢
    omega
  · have hlow : (2 : ℚ) ^ ((m.log2 : ℤ) + e) ≤ 2 ^ (-1075 : ℤ) := by
      rw [zpow_add₀ two_ne_zero, zpow_natCast]
      exact (mul_le_mul_of_nonneg_right (two_pow_log2_le hm hle) (by positivity)).trans hsmall
    have := (zpow_le_zpow_iff_right₀ one_lt_two).mp hlow
    omega

/-- A number of at most half the smallest double is rounded to zero. -/
theorem roundWithAccuracy_eq_zero (s : Sign) {m : ℕ} {e : ℤ} {a : Accuracy} {v : ℚ}
    (hloc : Locates m v a) (he : e ≤ Format.binary64.targetExponent (totalExponent m e))
    (hv : 0 < v) (hsmall : v * 2 ^ e ≤ 2 ^ (-1075 : ℤ)) :
    UnpackedFloat.roundWithAccuracy Format.binary64 s m e a = .zero s := by
  change e ≤ max ((m.log2 : ℤ) + 1 + e - 53) (-1074) at he
  have htarget := target_of_le hloc.le he hsmall
  rw [htarget] at he
  obtain ⟨em, hfirst, hshift⟩ := exists_shiftToTargetExponent hloc htarget he
  have hrounded : em.roundedMantissa = 0 := by
    have hhalf : v * 2 ^ e / 2 ^ (-1074 : ℤ) ≤ 1 / 2 := by
      rw [div_le_iff₀ (by positivity)]
      refine hsmall.trans (le_of_eq ?_)
      rw [show (-1074 : ℤ) = -1075 + 1 by rfl, zpow_add_one₀ two_ne_zero]
      ring
    have hpos : 0 < v * 2 ^ e / 2 ^ (-1074 : ℤ) := by positivity
    refine hshift.roundToNearestEven ?_ ?_ fun hodd => absurd hodd (by decide)
    · rw [Nat.cast_zero]
      linarith only [hpos]
    · rw [Nat.cast_zero]
      linarith only [hhalf]
  simp only [UnpackedFloat.roundWithAccuracy, hfirst, hrounded]
  rfl

/-! ## Rounding exact results -/

/-- The number `x` is positive, and `f` is what it is rounded to, with the sign `s`. -/
def IsRounded (s : Sign) (x : ℚ) (f : UnpackedFloat) : Prop :=
  ∃ m e a v, Locates m v a ∧ e ≤ Format.binary64.targetExponent (totalExponent m e) ∧ 0 < v ∧
    v * 2 ^ e = x ∧ f = UnpackedFloat.roundWithAccuracy Format.binary64 s m e a

section IsRounded

variable {s : Sign} {x : ℚ} {f : UnpackedFloat}

theorem IsRounded.pos (h : IsRounded s x f) : 0 < x := by
  obtain ⟨m, e, a, v, -, -, hv, rfl, -⟩ := h
  positivity

theorem IsRounded.eq_finite (h : IsRounded s x f) {b : Binary64}
    (hb : Normalized b.mantissa b.exponent) (hin : (Interval.of b).Holds x) :
    f = .finite s b.mantissa b.exponent hb.pos := by
  obtain ⟨m, e, a, v, hloc, he, -, rfl, rfl⟩ := h
  exact roundWithAccuracy_eq s hb hloc he hin

theorem IsRounded.eq_zero (h : IsRounded s x f) (hsmall : x ≤ 2 ^ (-1075 : ℤ)) : f = .zero s := by
  obtain ⟨m, e, a, v, hloc, he, hv, rfl, rfl⟩ := h
  exact roundWithAccuracy_eq_zero s hloc he hv hsmall

end IsRounded

end Rollup.Number
