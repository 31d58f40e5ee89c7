import Rollup.Number.Rounding
import Rollup.Proofs.Double.Operations

/-! # Powers of ten

Repeated squaring rounds each product. The result is as near to the power as the number of products
lets it be, and infinite when the power is beyond the doubles. A negative power is a quotient of
one, so it is zero when the positive power is infinite.
-/

namespace Rollup.Number

open Float.Model
open Float.Model.UnpackedFloat (Sign)

/-! ## Products -/

/-- By how much rounding a product can lower and raise it. -/
def lowered : ℚ := 1 - 1 / 2 ^ 52

def raised : ℚ := 1 + 1 / 2 ^ 52

/-- The double is between two bounds, or infinite when the upper one is beyond the doubles. -/
structure Approximates (x : Float) (low high : ℚ) : Prop where
  one_le_low : 1 ≤ low
  one_le_high : 1 ≤ high
  low_le : x = infinity ∨ x.isFinite ∧ low ≤ exact x
  le_high : high ≤ largest → x.isFinite ∧ exact x ≤ high

section Approximates

variable {x y : Float} {a b c d : ℚ}

theorem Approximates.mono (h : Approximates x a b) (hc : 1 ≤ c) (hca : c ≤ a) (hbd : b ≤ d) :
    Approximates x c d where
  one_le_low := hc
  one_le_high := h.one_le_high.trans hbd
  low_le := h.low_le.imp_right fun hx => ⟨hx.1, hca.trans hx.2⟩
  le_high hd := ⟨(h.le_high (hbd.trans hd)).1, (h.le_high (hbd.trans hd)).2.trans hbd⟩

theorem Approximates.one_le_exact (h : Approximates x a b) (hx : x.isFinite) : 1 ≤ exact x := by
  rcases h.low_le with rfl | ⟨-, hlow⟩
  · rw [isFinite_infinity] at hx
    cases hx
  · exact h.one_le_low.trans hlow

theorem small_le {v : ℚ} (hv : 1 ≤ v) : (2 : ℚ) ^ (-1075 : ℤ) ≤ v / 2 ^ 53 := by
  calc (2 : ℚ) ^ (-1075 : ℤ) ≤ 2 ^ (-53 : ℤ) := zpow_le_zpow_right₀ one_le_two (by norm_num)
    _ = 1 / 2 ^ 53 := by norm_num
    _ ≤ v / 2 ^ 53 := div_le_div_of_nonneg_right hv (by norm_num)

/-- A product from one on is not lowered or raised by more than a part of it. -/
theorem Rounds.exact_bounds {v : ℚ} (h : Rounds x v) (hx : x.isFinite) (hv : 1 ≤ v) :
    v * lowered ≤ exact x ∧ exact x ≤ v * raised := by
  have hnear := abs_le.mp (h.near hx)
  rw [abs_of_pos (zero_lt_one.trans_le hv)] at hnear
  have hsmall := small_le hv
  unfold lowered raised
  constructor <;> linarith only [hnear.1, hnear.2, hsmall]

theorem Approximates.mul (hx : Approximates x a b) (hy : Approximates y c d) (hc : 2 ≤ c) :
    Approximates (x * y) (a * c * lowered) (b * d * raised) := by
  have ha := hx.one_le_low
  have hb := hx.one_le_high
  have hd := hy.one_le_high
  have hraised : 1 ≤ raised := by norm_num [raised]
  have hlowered : 0 ≤ lowered := by norm_num [lowered]
  refine ⟨?_, ?_, ?_, fun hhigh => ?_⟩
  · have hac : 1 * 2 ≤ a * c := mul_le_mul ha hc (by norm_num) (by linarith)
    exact le_trans (by norm_num [lowered]) (mul_le_mul_of_nonneg_right hac hlowered)
  · exact one_le_mul_of_one_le_of_one_le (one_le_mul_of_one_le_of_one_le hb hd) hraised
  · rcases hx.low_le with rfl | ⟨hxf, hxlow⟩
    · rcases hy.low_le with rfl | ⟨hyf, -⟩
      · exact .inl infinity_mul_infinity
      · exact .inl (infinity_mul hyf (zero_lt_one.trans_le (hy.one_le_exact hyf))).1
    rcases hy.low_le with rfl | ⟨hyf, hylow⟩
    · exact .inl (infinity_mul hxf (zero_lt_one.trans_le (hx.one_le_exact hxf))).2
    have hproduct : a * c ≤ exact x * exact y :=
      mul_le_mul hxlow hylow (by linarith) (by linarith)
    have hone : 1 ≤ exact x * exact y :=
      one_le_mul_of_one_le_of_one_le (hx.one_le_exact hxf) (hy.one_le_exact hyf)
    have hrounds := rounds_mul hxf hyf
    cases hfinite : (x * y).isFinite with
    | true =>
      exact .inr ⟨rfl, (mul_le_mul_of_nonneg_right hproduct hlowered).trans
        (hrounds.exact_bounds hfinite hone).1⟩
    | false =>
      refine .inl (hrounds.eq_infinity (lt_of_lt_of_le ?_ hone) hfinite)
      exact zpow_lt_one_of_neg₀ one_lt_two (by norm_num)
  · have hbd : b * d ≤ largest :=
      (le_mul_of_one_le_right (by positivity) hraised).trans hhigh
    obtain ⟨hxf, hxhigh⟩ := hx.le_high ((le_mul_of_one_le_right (by linarith) hd).trans hbd)
    obtain ⟨hyf, hyhigh⟩ := hy.le_high ((le_mul_of_one_le_left (by linarith) hb).trans hbd)
    have hproduct : exact x * exact y ≤ b * d :=
      mul_le_mul hxhigh hyhigh (by linarith [hy.one_le_exact hyf]) (by linarith)
    have hone : 1 ≤ exact x * exact y :=
      one_le_mul_of_one_le_of_one_le (hx.one_le_exact hxf) (hy.one_le_exact hyf)
    have hrounds := rounds_mul hxf hyf
    have hfinite : (x * y).isFinite := by
      refine hrounds.isFinite ?_
      rw [abs_of_pos (zero_lt_one.trans_le hone)]
      exact hproduct.trans hbd
    exact ⟨hfinite, (hrounds.exact_bounds hfinite hone).2.trans
      (mul_le_mul_of_nonneg_right hproduct (zero_le_one.trans hraised))⟩

end Approximates

/-! ## Repeated squaring -/

theorem pow_eq_halves (x : ℚ) (k : ℕ) : x ^ k = x ^ (k % 2) * (x * x) ^ (k / 2) := by
  rw [← sq, ← pow_mul, ← pow_add, Nat.mod_add_div]

/-! One step rounds the product and the square once, which is less than the two times by which the
bounds allow for each factor. -/

theorem lowered_step {a c : ℚ} (ha : 0 ≤ a) (hc : 0 ≤ c) (k : ℕ) :
    a * (c * lowered ^ 2) ^ k ≤ (if k % 2 = 1 then a * c * lowered else a) *
      (c * c * lowered * lowered ^ 2) ^ (k / 2) := by
  have hpos : 0 ≤ lowered := by norm_num [lowered]
  have hle : lowered ≤ 1 := by norm_num [lowered]
  have hsquare : c * lowered ^ 2 * (c * lowered ^ 2) ≤ c * c * lowered * lowered ^ 2 := by
    calc c * lowered ^ 2 * (c * lowered ^ 2) = c * c * lowered * lowered ^ 2 * lowered := by ring
      _ ≤ c * c * lowered * lowered ^ 2 := mul_le_of_le_one_right (by positivity) hle
  rw [pow_eq_halves, ← mul_assoc]
  refine mul_le_mul ?_ (pow_le_pow_left₀ (by positivity) hsquare _) (by positivity) ?_
  · rcases Nat.mod_two_eq_zero_or_one k with h | h <;> rw [h]
    · simp
    · calc a * (c * lowered ^ 2) ^ 1 = a * c * lowered * lowered := by ring
        _ ≤ a * c * lowered := mul_le_of_le_one_right (by positivity) hle
  · split_ifs <;> positivity

theorem raised_step {b d : ℚ} (hb : 0 ≤ b) (hd : 0 ≤ d) (k : ℕ) :
    (if k % 2 = 1 then b * d * raised else b) * (d * d * raised * raised ^ 2) ^ (k / 2) ≤
      b * (d * raised ^ 2) ^ k := by
  have hone : 1 ≤ raised := by norm_num [raised]
  have hpos : 0 ≤ raised := zero_le_one.trans hone
  have hsquare : d * d * raised * raised ^ 2 ≤ d * raised ^ 2 * (d * raised ^ 2) := by
    calc d * d * raised * raised ^ 2 ≤ d * d * raised * raised ^ 2 * raised :=
          le_mul_of_one_le_right (by positivity) hone
      _ = d * raised ^ 2 * (d * raised ^ 2) := by ring
  rw [pow_eq_halves (d * raised ^ 2), ← mul_assoc]
  refine mul_le_mul ?_ (pow_le_pow_left₀ (by positivity) hsquare _) (by positivity) (by positivity)
  rcases Nat.mod_two_eq_zero_or_one k with h | h <;> rw [h]
  · simp
  · calc b * d * raised ≤ b * d * raised * raised := le_mul_of_one_le_right (by positivity) hone
      _ = b * (d * raised ^ 2) ^ 1 := by ring

theorem Approximates.powerLoop {r base : Float} {a b c d : ℚ} (hr : Approximates r a b)
    (hbase : Approximates base c d) (hc : 2 ≤ c) (k : ℕ) :
    Approximates (powerLoop r base k) (a * (c * lowered ^ 2) ^ k) (b * (d * raised ^ 2) ^ k) := by
  induction k using Nat.strong_induction_on generalizing r base a b c d with
  | _ k ih =>
    have ha := hr.one_le_low
    have hone : 1 ≤ c * lowered ^ 2 := by
      have h : 2 * lowered ^ 2 ≤ c * lowered ^ 2 := mul_le_mul_of_nonneg_right hc (sq_nonneg _)
      exact le_trans (by norm_num [lowered]) h
    unfold Number.powerLoop
    split
    case isTrue hk =>
      subst hk
      simpa using hr
    case isFalse hk =>
      have hsquare := hbase.mul hbase hc
      have hfactor : Approximates (if k % 2 = 1 then r * base else r)
          (if k % 2 = 1 then a * c * lowered else a) (if k % 2 = 1 then b * d * raised else b) := by
        split
        case isTrue => exact hr.mul hbase hc
        case isFalse => exact hr
      have hc' : 2 ≤ c * c * lowered := by
        have h : 2 * 2 * lowered ≤ c * c * lowered :=
          mul_le_mul_of_nonneg_right (mul_le_mul hc hc (by norm_num) (by linarith))
            (by norm_num [lowered])
        exact le_trans (by norm_num [lowered]) h
      exact (ih (k / 2) (by omega) hfactor hsquare hc').mono
        (one_le_mul_of_one_le_of_one_le ha (one_le_pow₀ hone))
        (lowered_step (by linarith) (by linarith) k)
        (raised_step (by linarith [hr.one_le_high]) (by linarith [hbase.one_le_high]) k)

/-! ## Powers of ten -/

theorem approximates_exact {x : Float} {v : ℚ} (hx : x.isFinite ∧ exact x = v) (hv : 1 ≤ v) :
    Approximates x v v :=
  ⟨hv, hv, .inr ⟨hx.1, hx.2.ge⟩, fun _ => ⟨hx.1, hx.2.le⟩⟩

theorem approximates_powerOfTen (k : ℕ) :
    Approximates (powerOfTen k) ((10 * lowered ^ 2) ^ k) ((10 * raised ^ 2) ^ k) := by
  have hloop : powerOfTen k = powerLoop 1 10 k := by
    rw [powerOfTen, if_neg (by omega), Int.natAbs_natCast]
  have hone := approximates_exact exact_literal_one le_rfl
  have hten := approximates_exact (exact_literal 10 (by decide)) (by norm_num)
  have h := hone.powerLoop hten (by norm_num) k
  rwa [one_mul, one_mul, ← hloop] at h

theorem largest_le : largest ≤ 256 ^ 128 := by
  calc largest ≤ 2 ^ (53 : ℤ) * 2 ^ (971 : ℤ) :=
        mul_le_mul_of_nonneg_right (by norm_num) (by positivity)
    _ = (2 ^ (8 : ℤ)) ^ (128 : ℤ) := by
        rw [← zpow_add₀ two_ne_zero, ← zpow_mul]
        rfl
    _ = 256 ^ 128 := by norm_num

/-- The doubles end before `10 ^ 309`. -/
theorem powerOfTen_eq_infinity {k : ℕ} (hk : 309 ≤ k) : powerOfTen k = infinity := by
  refine (approximates_powerOfTen k).low_le.resolve_right ?_
  rintro ⟨hfinite, hlow⟩
  have hle := ((le_abs_self _).trans (abs_exact_le_largest hfinite)).trans' hlow
  have hpow : (999.9 : ℚ) ^ 103 ≤ (10 * lowered ^ 2) ^ k := by
    calc (999.9 : ℚ) ^ 103 ≤ ((10 * lowered ^ 2) ^ 3) ^ 103 :=
          pow_le_pow_left₀ (by norm_num) (by norm_num [lowered]) 103
      _ = (10 * lowered ^ 2) ^ 309 := (pow_mul _ 3 103).symm
      _ ≤ (10 * lowered ^ 2) ^ k := pow_le_pow_right₀ (by norm_num [lowered]) hk
  exact absurd ((hpow.trans hle).trans largest_le) (by norm_num)

theorem powerOfTen_le {k : ℕ} (hk : k ≤ 306) :
    (powerOfTen k).isFinite ∧ exact (powerOfTen k) ≤ 2 ^ (1017 : ℤ) := by
  have hpow : (10 * raised ^ 2) ^ k ≤ 2 ^ (1017 : ℤ) := by
    calc (10 * raised ^ 2) ^ k ≤ (10 * raised ^ 2) ^ 306 :=
          pow_le_pow_right₀ (by norm_num [raised]) hk
      _ = ((10 * raised ^ 2) ^ 2) ^ 153 := pow_mul _ 2 153
      _ ≤ 100.001 ^ 153 := pow_le_pow_left₀ (by positivity) (by norm_num [raised]) 153
      _ ≤ (2 ^ (9 : ℤ)) ^ (113 : ℤ) := by norm_num
      _ = 2 ^ (1017 : ℤ) := (zpow_mul 2 9 113).symm
  have h := (approximates_powerOfTen k).le_high (hpow.trans (zpow_le_largest (by norm_num)))
  exact ⟨h.1, h.2.trans hpow⟩

theorem powerOfTen_neg {k : ℕ} (hpos : 0 < k) : powerOfTen (-k) = 1 / powerOfTen k := by
  rw [powerOfTen, powerOfTen, if_pos (by omega), if_neg (by omega), Int.natAbs_neg]

/-- A negative power is a double from `10 ^ -306` on. -/
theorem le_powerOfTen_neg {k : ℕ} (hpos : 0 < k) (hk : k ≤ 306) :
    (powerOfTen (-k)).isFinite ∧ 2 ^ (-1017 : ℤ) ≤ exact (powerOfTen (-k)) := by
  obtain ⟨hfinite, hle⟩ := powerOfTen_le hk
  have hone := (approximates_powerOfTen k).one_le_exact hfinite
  have hposExact : 0 < exact (powerOfTen k) := zero_lt_one.trans_le hone
  have hrounds := rounds_div exact_literal_one.1 hfinite hposExact.ne'
  rw [exact_literal_one.2, ← powerOfTen_neg hpos] at hrounds
  have hfinite' : (powerOfTen (-k)).isFinite := by
    refine hrounds.isFinite ?_
    rw [abs_of_pos (one_div_pos.mpr hposExact)]
    exact ((div_le_one hposExact).mpr hone).trans (zpow_le_largest (k := 0) (by norm_num))
  refine ⟨hfinite', hrounds.zpow_le hfinite' (by norm_num) ?_⟩
  rw [zpow_neg, ← one_div]
  exact one_div_le_one_div_of_le hposExact hle

theorem powerOfTen_neg_eq_zero {k : ℕ} (hk : 309 ≤ k) :
    ∃ s, powerOfTen (-k) = assemble (.zero s) := by
  rw [powerOfTen_neg (by omega), powerOfTen_eq_infinity hk]
  exact div_infinity exact_literal_one.1

/-! ## Quotients by powers -/

section Quotients

variable {n : Float} (hn : n.isFinite)

include hn

theorem isFinite_div_powerOfTen (k : ℕ) : (n / powerOfTen k).isFinite := by
  have happrox := approximates_powerOfTen k
  rcases happrox.low_le with hinfinity | ⟨hfinite, -⟩
  · obtain ⟨s, hs⟩ := div_infinity hn
    rw [hinfinity, hs]
    exact finite_iff.mp (.zero s)
  · have hone := happrox.one_le_exact hfinite
    have hpos := zero_lt_one.trans_le hone
    refine (rounds_div hn hfinite hpos.ne').isFinite ?_
    rw [abs_div, abs_of_pos hpos]
    exact (div_le_self (abs_nonneg _) hone).trans (abs_exact_le_largest hn)

theorem isFinite_div_powerOfTen_neg (hsmall : |exact n| ≤ 16) {k : ℕ} (hpos : 0 < k) (hk : k ≤ 306) :
    (n / powerOfTen (-k)).isFinite := by
  obtain ⟨hfinite, hlow⟩ := le_powerOfTen_neg hpos hk
  have hlowPos : (0 : ℚ) < 2 ^ (-1017 : ℤ) := by positivity
  have hexact := hlowPos.trans_le hlow
  refine (rounds_div hn hfinite hexact.ne').isFinite ?_
  rw [abs_div, abs_of_pos hexact]
  calc |exact n| / exact (powerOfTen (-k)) ≤ 2 ^ (4 : ℤ) / 2 ^ (-1017 : ℤ) :=
        div_le_div₀ (by positivity) (hsmall.trans (by norm_num)) hlowPos hlow
    _ = 2 ^ (1021 : ℤ) := (zpow_sub₀ two_ne_zero 4 (-1017)).symm
    _ ≤ largest := zpow_le_largest (by norm_num)

theorem div_powerOfTen_neg_eq_infinity (hne : exact n ≠ 0) {k : ℕ} (hk : 309 ≤ k) :
    ∃ s, n / powerOfTen (-k) = assemble (.infinity s) := by
  obtain ⟨s, hs⟩ := powerOfTen_neg_eq_zero hk
  rw [hs]
  exact div_assemble_zero hn hne s

end Quotients

end Rollup.Number
