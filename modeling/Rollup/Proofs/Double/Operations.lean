import Rollup.Proofs.Double.Equality
import Rollup.Proofs.Double.Nearest
import Rollup.Proofs.Double.Value

/-! # Operations round to the nearest double

The result of an operation is the exact result, rounded to 53 binary digits. It is infinite when the
exact result has too large an exponent, and zero when that is at most half the smallest double.
-/

namespace Rollup.Number

open Float.Model
open Float.Model.UnpackedFloat (Sign)

/-! ## What a number rounds to -/

/-- The double that a number rounds to. -/
inductive Rounds : Float → ℚ → Prop
  | zero (s : Sign) : Rounds (assemble (.zero s)) 0
  | underflow (s : Sign) {v : ℚ} (hpos : 0 < v) (hsmall : v ≤ 2 ^ (-1075 : ℤ)) :
      Rounds (assemble (.zero s)) (signValue s * v)
  | nonzero (s : Sign) {b : Binary64} {v : ℚ} (hb : Normalized b.mantissa b.exponent)
      (hin : (Interval.of b).Holds v) :
      Rounds (assemble (.finite s b.mantissa b.exponent hb.pos)) (signValue s * v)

theorem abs_exact_le_largest {x : Float} (hx : x.isFinite) : |exact x| ≤ largest := by
  cases finite_iff.mpr hx with
  | zero s =>
    rw [exact_zero, abs_zero]
    exact le_trans (by positivity) (zpow_le_largest (k := 0) (by norm_num))
  | finite s h =>
    rw [exact_finite s h, abs_mul, abs_signValue, one_mul, abs_of_pos h.size_pos]
    have hsmall := h.small
    have hm : ((_ : ℕ) : ℚ) ≤ 2 ^ 53 - 1 := le_sub_iff_add_le.mpr (by exact_mod_cast hsmall)
    exact mul_le_mul hm (zpow_le_zpow_right₀ one_le_two h.most) (by positivity) (by norm_num)

theorem isFinite_assemble_infinity (s : Sign) : (assemble (.infinity s)).isFinite = false := by
  have hproper : Proper (.infinity s) := trivial
  rw [isFinite_assemble hproper]
  rfl

theorem Normalized.eq_infinity {s : Sign} {m : ℕ} {e : ℤ} (h : Normalized m e) (hlarge : 971 < e) :
    assemble (.finite s m e h.pos) = assemble (.infinity s) := by
  have hpack : UnpackedFloat.pack Format.binary64 (.finite s m e h.pos) =
      UnpackedFloat.pack Format.binary64 (.infinity s) := by
    rw [pack_finite, if_pos (by omega)]
    rfl
  simp only [assemble, Float.Model.pack, hpack]

/-- A mantissa and exponent make a double unless the exponent is too large. -/
theorem Normalized.canonical {s : Sign} {m : ℕ} {e : ℤ} (h : Normalized m e)
    (hfinite : (assemble (.finite s m e h.pos)).isFinite) : Canonical m e := by
  refine ⟨h.pos, h.small, h.least, ?_, h.full⟩
  by_contra hmost
  rw [h.eq_infinity (not_le.mp hmost), isFinite_assemble_infinity] at hfinite
  cases hfinite

section Rounds

variable {x y : Float} {v : ℚ}

theorem Rounds.of_isRounded {s : Sign} {f : UnpackedFloat} (h : IsRounded s v f) :
    Rounds (assemble f) (signValue s * v) := by
  rcases le_or_gt v (2 ^ (-1075 : ℤ)) with hsmall | hlarge
  · rw [h.eq_zero hsmall]
    exact .underflow s h.pos hsmall
  · obtain ⟨b, hb, hin⟩ := exists_holds hlarge
    rw [h.eq_finite hb hin]
    exact .nonzero s hb hin

/-- Nothing up to the largest double is rounded to infinity. -/
theorem Rounds.isFinite (h : Rounds x v) (hv : |v| ≤ largest) : x.isFinite := by
  cases h with
  | zero s => exact finite_iff.mp (.zero s)
  | underflow s => exact finite_iff.mp (.zero s)
  | nonzero s hb hin =>
    rw [abs_mul, abs_signValue, one_mul, abs_of_pos (holds_pos hb hin)] at hv
    exact finite_iff.mp (.finite s (canonical_of_le hb hin hv))

/-- A finite result is zero for tiny numbers. Otherwise it has the sign of the exact result, which
lies in its interval. -/
theorem Rounds.cases_of_isFinite (h : Rounds x v) (hx : x.isFinite) :
    |v| ≤ 2 ^ (-1075 : ℤ) ∧ exact x = 0 ∨
      ∃ (s : Sign) (b : Binary64) (u : ℚ), Normalized b.mantissa b.exponent ∧
        (Interval.of b).Holds u ∧ v = signValue s * u ∧
        exact x = signValue s * (b.mantissa * 2 ^ b.exponent) := by
  cases h with
  | zero s => exact .inl ⟨by rw [abs_zero]; positivity, exact_zero s⟩
  | underflow s hpos hsmall =>
    exact .inl ⟨by rwa [abs_mul, abs_signValue, one_mul, abs_of_pos hpos], exact_zero s⟩
  | nonzero s hb hin => exact .inr ⟨s, _, _, hb, hin, rfl, exact_finite s (hb.canonical hx)⟩

theorem Rounds.near (h : Rounds x v) (hx : x.isFinite) :
    |exact x - v| ≤ |v| / 2 ^ 53 + 2 ^ (-1075 : ℤ) := by
  rcases h.cases_of_isFinite hx with ⟨hsmall, hzero⟩ | ⟨s, b, u, hb, hin, rfl, hexact⟩
  · rw [hzero, zero_sub, abs_neg]
    exact hsmall.trans (le_add_of_nonneg_left (by positivity))
  · rw [hexact, ← mul_sub, abs_mul, abs_mul, abs_signValue, one_mul, one_mul,
      abs_of_pos (holds_pos hb hin)]
    exact abs_size_sub_le hb hin

theorem least_le : (2 : ℚ) ^ (-1075 : ℤ) ≤ 1 / 10 ^ 30 := by
  calc (2 : ℚ) ^ (-1075 : ℤ) ≤ 2 ^ (-100 : ℤ) := zpow_le_zpow_right₀ one_le_two (by norm_num)
    _ ≤ 1 / 10 ^ 30 := by norm_num

/-- Rounding changes a number by a tiny part of it. -/
theorem Rounds.abs_sub_le (h : Rounds x v) (hx : x.isFinite) :
    |exact x - v| ≤ |v| / 10 ^ 15 + 1 / 10 ^ 30 := by
  refine (h.near hx).trans (add_le_add ?_ least_le)
  exact div_le_div_of_nonneg_left (abs_nonneg v) (by norm_num) (by norm_num)

theorem eq_positive {s : Sign} {u : ℚ} (hu : 0 < u) (h : 0 ≤ signValue s * u) :
    s = .positive := by
  cases s
  · rw [signValue_negative] at h
    linarith
  · rfl

theorem Rounds.nonneg (h : Rounds x v) (hx : x.isFinite) (hv : 0 ≤ v) : 0 ≤ exact x := by
  rcases h.cases_of_isFinite hx with ⟨-, hzero⟩ | ⟨s, b, u, hb, hin, rfl, hexact⟩
  · exact hzero.ge
  · obtain rfl := eq_positive (holds_pos hb hin) hv
    rw [hexact, signValue_positive, one_mul]
    positivity

theorem Rounds.zpow_le (h : Rounds x v) (hx : x.isFinite) {k : ℤ} (hleast : -1074 ≤ k)
    (hk : 2 ^ k ≤ v) : 2 ^ k ≤ exact x := by
  have hpos : 0 < v := lt_of_lt_of_le (by positivity) hk
  rcases h.cases_of_isFinite hx with ⟨hsmall, -⟩ | ⟨s, b, u, hb, hin, rfl, hexact⟩
  · have hle := (hk.trans (le_abs_self v)).trans hsmall
    have := (zpow_le_zpow_iff_right₀ one_lt_two).mp hle
    omega
  · obtain rfl := eq_positive (holds_pos hb hin) hpos.le
    rw [signValue_positive, one_mul] at hexact hk
    rw [hexact]
    exact zpow_le_size hb hin hk

theorem Rounds.le_zpow (h : Rounds x v) (hx : x.isFinite) {k : ℤ} (hleast : -1074 ≤ k)
    (hk : v ≤ 2 ^ k) : exact x ≤ 2 ^ k := by
  rcases h.cases_of_isFinite hx with ⟨-, hzero⟩ | ⟨s, b, u, hb, hin, rfl, hexact⟩
  · rw [hzero]
    positivity
  · rw [hexact]
    cases s with
    | positive =>
      rw [signValue_positive, one_mul] at hk ⊢
      exact size_le_zpow hb hin hleast hk
    | negative =>
      have hsize : (0 : ℚ) ≤ b.mantissa * 2 ^ b.exponent := by positivity
      have hpow : (0 : ℚ) < 2 ^ k := by positivity
      rw [signValue_negative]
      linarith only [hsize, hpow]

theorem signValue_mul_eq {s s' : Sign} {u u' : ℚ} (hu : 0 < u) (hu' : 0 < u')
    (h : signValue s * u = signValue s' * u') : s = s' ∧ u = u' := by
  cases s <;> cases s' <;> simp only [signValue_positive, signValue_negative] at h <;>
    refine ⟨?_, ?_⟩ <;> first | rfl | linarith

theorem Rounds.exact_eq_zero (h : Rounds x 0) (hx : x.isFinite) : exact x = 0 := by
  rcases h.cases_of_isFinite hx with ⟨-, hzero⟩ | ⟨s, b, u, hb, hin, hu, -⟩
  · exact hzero
  · have hsize := (abs_mul (signValue s) u).symm
    rw [← hu, abs_zero, abs_signValue, one_mul, abs_of_pos (holds_pos hb hin)] at hsize
    exact absurd hsize (holds_pos hb hin).ne'

theorem Rounds.exists_nonzero (h : Rounds x v) (hv : 2 ^ (-1075 : ℤ) < |v|) :
    ∃ (s : Sign) (b : Binary64) (u : ℚ) (hb : Normalized b.mantissa b.exponent),
      (Interval.of b).Holds u ∧ v = signValue s * u ∧
      x = assemble (.finite s b.mantissa b.exponent hb.pos) := by
  cases h with
  | zero s =>
    rw [abs_zero] at hv
    exact absurd hv (by positivity : (0 : ℚ) ≤ 2 ^ (-1075 : ℤ)).not_gt
  | underflow s hpos hsmall =>
    rw [abs_mul, abs_signValue, one_mul, abs_of_pos hpos] at hv
    exact absurd hv hsmall.not_gt
  | nonzero s hb hin => exact ⟨s, _, _, hb, hin, rfl, rfl⟩

/-- A positive number without a double is rounded to infinity. -/
theorem Rounds.eq_infinity (h : Rounds x v) (hv : 2 ^ (-1075 : ℤ) < v) (hx : x.isFinite = false) :
    x = assemble (.infinity .positive) := by
  have hpos : 0 < v := lt_trans (by positivity) hv
  obtain ⟨s, b, u, hb, hin, rfl, rfl⟩ := h.exists_nonzero (hv.trans_le (le_abs_self v))
  obtain rfl := eq_positive (holds_pos hb hin) hpos.le
  refine hb.eq_infinity ?_
  by_contra hmost
  have hcanonical : Canonical b.mantissa b.exponent :=
    ⟨hb.pos, hb.small, hb.least, not_lt.mp hmost, hb.full⟩
  rw [finite_iff.mp (.finite .positive hcanonical)] at hx
  cases hx

theorem Rounds.unique (hx : Rounds x v) (hy : Rounds y v) (hv : 2 ^ (-1075 : ℤ) < |v|) : x = y := by
  obtain ⟨s, b, u, hb, hin, hu, rfl⟩ := hx.exists_nonzero hv
  obtain ⟨s', b', u', hb', hin', hu', rfl⟩ := hy.exists_nonzero hv
  obtain ⟨rfl, rfl⟩ := signValue_mul_eq (holds_pos hb hin) (holds_pos hb' hin') (hu.symm.trans hu')
  obtain ⟨hm, he⟩ := holds_unique hb hin hb' hin'
  exact congrArg assemble (finite_congr hm he)

end Rounds

/-! ## Operations -/

theorem rounds_self {x : Float} (hx : x.isFinite) : Rounds x (exact x) := by
  cases finite_iff.mpr hx with
  | zero s =>
    rw [exact_zero]
    exact .zero s
  | @finite s m e h =>
    rw [exact_finite s h]
    exact .nonzero s (b := ⟨false, m, e⟩) h.normalized (holds_self h.pos)

theorem signValue_mul (s s' : Sign) : signValue (s * s') = signValue s * signValue s' := by
  have h : isMinus (s * s') = (isMinus s ^^ isMinus s') := by cases s <;> cases s' <;> rfl
  unfold signValue
  rw [h]
  cases isMinus s <;> cases isMinus s' <;> norm_num

theorem signValue_div (s s' : Sign) : signValue (s / s') = signValue s / signValue s' := by
  have h : isMinus (s / s') = (isMinus s ^^ isMinus s') := by cases s <;> cases s' <;> rfl
  unfold signValue
  rw [h]
  cases isMinus s <;> cases isMinus s' <;> norm_num

/-- A product has full length unless it is far too small. -/
theorem mul_digits {m m' : ℕ} {e e' : ℤ} (h : Canonical m e) (h' : Canonical m' e') :
    e + e' ≤ -1074 ∨ 52 ≤ (m * m').log2 := by
  have hle : 2 ^ 52 ≤ m * m' → 52 ≤ (m * m').log2 :=
    (Nat.le_log2 (Nat.mul_pos h.pos h'.pos).ne').mpr
  rcases h.full with hfull | he
  · exact .inr (hle (hfull.trans (Nat.le_mul_of_pos_right _ h'.pos)))
  · rcases h'.full with hfull' | he'
    · exact .inr (hle (hfull'.trans (Nat.le_mul_of_pos_left _ h.pos)))
    · left
      omega

/-! A sum is a whole number of units, which is rounded. -/

theorem shiftLeft_mul (m : ℕ) {e t : ℤ} (h : t ≤ e) :
    ((m <<< (e - t).toNat : ℕ) : ℚ) * 2 ^ t = m * 2 ^ e := by
  obtain ⟨k, hk⟩ := Int.eq_ofNat_of_zero_le (sub_nonneg.mpr h)
  rw [hk, Int.toNat_natCast, Nat.shiftLeft_eq, show e = t + k by omega, zpow_add₀ two_ne_zero,
    zpow_natCast]
  push_cast
  ring

theorem log2_shiftLeft {m : ℕ} (hm : 0 < m) (k : ℕ) : (m <<< k).log2 = m.log2 + k := by
  induction k with
  | zero => simp
  | succ k ih =>
    have hne : m <<< k ≠ 0 := by
      rw [Nat.shiftLeft_eq]
      positivity
    rw [Nat.shiftLeft_succ, Nat.log2_two_mul hne, ih, Nat.add_assoc]

theorem isRounded_round (s : Sign) {m : ℕ} {e : ℤ} (hm : 0 < m) :
    IsRounded s (m * 2 ^ e) (UnpackedFloat.round Format.binary64 s m e) := by
  obtain ⟨t, ht⟩ : ∃ t, Format.binary64.targetExponent (totalExponent m e) = t := ⟨_, rfl⟩
  refine ⟨m <<< (e - t).toNat, e - (e - t).toNat, .exact, (m <<< (e - t).toNat : ℕ), rfl, ?_, ?_, ?_,
    ?_⟩
  · rw [targetExponent_eq, totalExponent] at ht ⊢
    rw [log2_shiftLeft hm]
    omega
  · rw [Nat.shiftLeft_eq]
    positivity
  · rcases le_total t e with h | h
    · rw [show e - ((e - t).toNat : ℤ) = t by omega, shiftLeft_mul m h]
    · rw [show (e - t).toNat = 0 by omega, Nat.shiftLeft_zero, Nat.cast_zero, sub_zero]
  · rw [← ht]
    rfl

theorem rounds_normalize (n : ℤ) (e : ℤ) :
    Rounds (assemble (UnpackedFloat.normalize Format.binary64 n e .positive)) (n * 2 ^ e) := by
  unfold UnpackedFloat.normalize
  split
  case h_1 h =>
    have hn : n < 0 := Int.compare_eq_lt.mp h
    have hround := Rounds.of_isRounded (isRounded_round .negative (m := (-n).toNat) (e := e) (by omega))
    have hcast : (((-n).toNat : ℕ) : ℚ) = -n := by
      exact_mod_cast congrArg (Int.cast (R := ℚ)) (Int.toNat_of_nonneg (by omega : 0 ≤ -n))
    rw [hcast, signValue_negative] at hround
    convert hround using 1
    ring
  case h_2 h =>
    rw [Int.compare_eq_eq.mp h, Int.cast_zero, zero_mul]
    exact .zero .positive
  case h_3 h =>
    have hn : 0 < n := Int.compare_eq_gt.mp h
    have hround := Rounds.of_isRounded (isRounded_round .positive (m := n.toNat) (e := e) (by omega))
    have hcast : ((n.toNat : ℕ) : ℚ) = n := by
      exact_mod_cast congrArg (Int.cast (R := ℚ)) (Int.toNat_of_nonneg hn.le)
    rw [hcast, signValue_positive, one_mul] at hround
    exact hround

theorem cast_apply (s : Sign) (n : ℤ) : ((s.apply n : ℤ) : ℚ) = signValue s * n := by
  cases s with
  | positive => exact (one_mul _).symm
  | negative => exact (Int.cast_neg n).trans (neg_one_mul _).symm

/-- Adding is taking away the opposite, down to the sign of a zero. -/
theorem add_eq_sub_neg (x y : Float) : x + y = x - -y := by
  obtain ⟨f, hf, rfl⟩ := exists_proper x
  obtain ⟨g, hg, rfl⟩ := exists_proper y
  have hneg : Proper g.neg := by cases g <;> exact hg
  have hsign (s : Sign) : - -s = s := by cases s <;> rfl
  have happly (s : Sign) (n : ℤ) : (-s).apply n = -s.apply n := by
    cases s
    · exact (neg_neg n).symm
    · rfl
  rw [add_eq, sub_eq, neg_eq, view_assemble_of_proper hf, view_assemble_of_proper hg,
    view_assemble_of_proper hneg]
  congr 1
  cases f <;> cases g <;>
    simp only [UnpackedFloat.add, UnpackedFloat.sub, UnpackedFloat.neg, hsign, happly, sub_neg_eq_add]

section Operations

variable {x y : Float} (hx : x.isFinite) (hy : y.isFinite)

include hx hy

theorem rounds_div (hy0 : exact y ≠ 0) : Rounds (x / y) (exact x / exact y) := by
  cases finite_iff.mpr hy with
  | zero s' => exact absurd (exact_zero s') hy0
  | finite s' h' =>
    cases finite_iff.mpr hx with
    | zero s =>
      rw [exact_zero, zero_div, div_eq, view_assemble_zero, view_assemble_finite s' h']
      exact .zero (s / s')
    | finite s h =>
      rw [exact_finite s h, exact_finite s' h', mul_div_mul_comm, ← signValue_div, div_eq,
        view_assemble_finite s h, view_assemble_finite s' h']
      exact .of_isRounded (isRounded_div h.pos h'.pos)

theorem rounds_mul : Rounds (x * y) (exact x * exact y) := by
  cases finite_iff.mpr hx with
  | zero s =>
    rw [exact_zero, zero_mul, mul_eq, view_assemble_zero]
    cases finite_iff.mpr hy with
    | zero s' =>
      rw [view_assemble_zero]
      exact .zero (s * s')
    | finite s' h' =>
      rw [view_assemble_finite s' h']
      exact .zero (s * s')
  | finite s h =>
    cases finite_iff.mpr hy with
    | zero s' =>
      rw [exact_zero, mul_zero, mul_eq, view_assemble_zero, view_assemble_finite s h]
      exact .zero (s * s')
    | finite s' h' =>
      rw [exact_finite s h, exact_finite s' h', mul_mul_mul_comm, ← signValue_mul, mul_eq,
        view_assemble_finite s h, view_assemble_finite s' h']
      exact .of_isRounded (isRounded_mul h.pos h'.pos (mul_digits h h'))

theorem rounds_sub : Rounds (x - y) (exact x - exact y) := by
  cases finite_iff.mpr hx with
  | zero s =>
    rw [exact_zero, zero_sub, sub_eq, view_assemble_zero]
    cases finite_iff.mpr hy with
    | zero s' =>
      rw [view_assemble_zero, exact_zero, neg_zero]
      cases s <;> cases s' <;> exact .zero _
    | finite s' h' =>
      rw [view_assemble_finite s' h', exact_finite s' h', ← neg_mul, ← signValue_neg]
      exact .nonzero (-s') (b := ⟨false, _, _⟩) h'.normalized (holds_self h'.pos)
  | @finite s m e h =>
    cases finite_iff.mpr hy with
    | zero s' =>
      rw [exact_zero, sub_zero, sub_eq, view_assemble_zero, view_assemble_finite s h,
        exact_finite s h]
      exact .nonzero s (b := ⟨false, m, e⟩) h.normalized (holds_self h.pos)
    | @finite s' m' e' h' =>
      rw [sub_eq, view_assemble_finite s h, view_assemble_finite s' h', exact_finite s h,
        exact_finite s' h']
      have hsum := rounds_normalize (s.apply (m <<< (e - min e e').toNat : ℕ) -
        s'.apply (m' <<< (e' - min e e').toNat : ℕ)) (min e e')
      rw [Int.cast_sub, cast_apply, cast_apply, Int.cast_natCast, Int.cast_natCast, sub_mul, mul_assoc,
        mul_assoc, shiftLeft_mul m (min_le_left e e'), shiftLeft_mul m' (min_le_right e e')] at hsum
      exact hsum

theorem rounds_add : Rounds (x + y) (exact x + exact y) := by
  have hsub := rounds_sub hx (finite_iff.mp (finite_neg hy))
  rwa [exact_neg hy, sub_neg_eq_add, ← add_eq_sub_neg] at hsub

end Operations

/-! ## Infinity -/

def infinity : Float := assemble (.infinity .positive)

theorem isFinite_infinity : infinity.isFinite = false := isFinite_assemble_infinity .positive

theorem view_assemble_infinity (s : Sign) : view (assemble (.infinity s)) = .infinity s := by
  have hproper : Proper (.infinity s) := trivial
  exact view_assemble_of_proper hproper

theorem abs_assemble_infinity (s : Sign) : (assemble (.infinity s)).abs = infinity := by
  rw [abs_eq, view_assemble_infinity]
  rfl

theorem infinity_mul_infinity : infinity * infinity = infinity := by
  rw [infinity, mul_eq, view_assemble_infinity]
  rfl

theorem infinity_mul {x : Float} (hx : x.isFinite) (hpos : 0 < exact x) :
    infinity * x = infinity ∧ x * infinity = infinity := by
  cases finite_iff.mpr hx with
  | zero s =>
    rw [exact_zero] at hpos
    exact absurd hpos (lt_irrefl 0)
  | finite s h =>
    rw [exact_finite s h] at hpos
    obtain rfl := eq_positive h.size_pos hpos.le
    rw [infinity, mul_eq, mul_eq, view_assemble_infinity, view_assemble_finite .positive h]
    exact ⟨rfl, rfl⟩

theorem infinity_div {x : Float} (hx : x.isFinite) (hpos : 0 < exact x) : infinity / x = infinity := by
  cases finite_iff.mpr hx with
  | zero s =>
    rw [exact_zero] at hpos
    exact absurd hpos (lt_irrefl 0)
  | finite s h =>
    rw [exact_finite s h] at hpos
    obtain rfl := eq_positive h.size_pos hpos.le
    rw [infinity, div_eq, view_assemble_infinity, view_assemble_finite .positive h]
    rfl

theorem div_infinity {x : Float} (hx : x.isFinite) : ∃ s, x / infinity = assemble (.zero s) := by
  cases finite_iff.mpr hx with
  | zero s =>
    rw [infinity, div_eq, view_assemble_infinity, view_assemble_zero]
    exact ⟨_, rfl⟩
  | finite s h =>
    rw [infinity, div_eq, view_assemble_infinity, view_assemble_finite s h]
    exact ⟨_, rfl⟩

theorem div_assemble_zero {x : Float} (hx : x.isFinite) (hne : exact x ≠ 0) (s : Sign) :
    ∃ s', x / assemble (.zero s) = assemble (.infinity s') := by
  cases finite_iff.mpr hx with
  | zero s' => exact absurd (exact_zero s') hne
  | finite s' h =>
    rw [div_eq, view_assemble_zero, view_assemble_finite s' h]
    exact ⟨_, rfl⟩

theorem rounds_ofNat {n : ℕ} (hn : (n : ℚ) ≤ largest) : Rounds (Float.ofNat n) n := by
  rcases Nat.eq_zero_or_pos n with rfl | hpos
  · rw [ofNat_zero, Nat.cast_zero]
    exact .zero .positive
  · have hone : (1 : ℚ) ≤ n := by exact_mod_cast hpos
    have hlarge : (2 : ℚ) ^ (-1075 : ℤ) < n :=
      (zpow_lt_one_of_neg₀ one_lt_two (by norm_num)).trans_le hone
    obtain ⟨b, hb, hin⟩ := exists_holds hlarge
    have hread : Float.ofNat n = assemble (.finite .positive b.mantissa b.exponent hb.pos) :=
      ofScientific_eq (e := 0) (canonical_of_le hb hin hn) hpos rfl (by simpa using hin)
    rw [hread]
    exact (one_mul (n : ℚ)) ▸ .nonzero .positive hb hin

theorem Rounds.neg {x : Float} {v : ℚ} (h : Rounds x v) (hx : x.isFinite) : Rounds (-x) (-v) := by
  cases h with
  | underflow s hpos hsmall =>
    rw [neg_eq, view_assemble_zero, ← neg_mul, ← signValue_neg]
    exact .underflow (-s) hpos hsmall
  | zero s =>
    rw [neg_eq, view_assemble_zero, neg_zero]
    exact .zero (-s)
  | nonzero s hb hin =>
    rw [neg_eq, view_assemble_finite s (hb.canonical hx), ← neg_mul, ← signValue_neg]
    exact .nonzero (-s) hb hin

theorem rounds_ofInt {k : ℤ} (hk : (k.natAbs : ℚ) ≤ largest) : Rounds (Float.ofInt k) k := by
  cases k with
  | ofNat n => exact rounds_ofNat hk
  | negSucc n =>
    have hneg : Float.ofInt (.negSucc n) = -Float.ofNat (n + 1) := rfl
    have hround := rounds_ofNat (n := n + 1) hk
    rw [hneg, Int.cast_negSucc]
    exact hround.neg (hround.isFinite (by rwa [Nat.abs_cast]))

end Rollup.Number
