import Rollup.Proofs.Double.Operations

/-! # Arithmetic on whole numbers is exact

An operation on whole numbers rounds the number that it should give, which is a double itself when
it is whole and below `2 ^ 53` in size. Only which zero stands for 0 is left open.
-/

namespace Rollup.Number

open Float.Model (UnpackedFloat)

/-- The double is the whole number. Zero may have either sign. -/
structure IsInteger (k : ℤ) (x : Float) : Prop where
  isFinite : x.isFinite
  exact_eq : exact x = k

/-! ## Which double a whole number is -/

section

variable {j k : ℤ} {x y : Float}

theorem isInteger_ofInt (hk : k.natAbs < 2 ^ 53) : IsInteger k (Float.ofInt k) := by
  obtain ⟨hfinite, hexact⟩ := exact_ofInt hk
  exact ⟨hfinite, hexact⟩

theorem isInteger_ofNat {n : ℕ} (hn : n < 2 ^ 53) : IsInteger n (Float.ofNat n) :=
  isInteger_ofInt (k := n) hn

theorem isInteger_literal (n : ℕ) [n.AtLeastTwo] (hn : n < 2 ^ 53) :
    IsInteger n (OfNat.ofNat n : Float) := by
  obtain ⟨hfinite, hexact⟩ := exact_literal n hn
  exact ⟨hfinite, hexact⟩

theorem isInteger_zero : IsInteger 0 0 := by
  obtain ⟨hfinite, hexact⟩ := exact_literal_zero
  exact ⟨hfinite, by simpa using hexact⟩

theorem Rounds.eq_ofInt (h : Rounds x k) (hk : k.natAbs < 2 ^ 53) (hne : k ≠ 0) :
    x = Float.ofInt k := by
  have hone : (1 : ℚ) ≤ |(k : ℚ)| := by exact_mod_cast Int.one_le_abs hne
  have hsmall : (2 : ℚ) ^ (-1075 : ℤ) < 1 := zpow_lt_one_of_neg₀ one_lt_two (by norm_num)
  obtain ⟨hfinite, hexact⟩ := exact_ofInt hk
  have hself := rounds_self hfinite
  rw [hexact] at hself
  exact h.unique hself (hsmall.trans_le hone)

theorem Rounds.isInteger (h : Rounds x k) (hk : k.natAbs < 2 ^ 53) : IsInteger k x := by
  by_cases hne : k = 0
  · subst hne
    rw [Int.cast_zero] at h
    have hfinite : x.isFinite := by
      refine h.isFinite ?_
      rw [abs_zero]
      exact le_trans (by positivity) (zpow_le_largest (k := 0) (by norm_num))
    exact ⟨hfinite, by rw [h.exact_eq_zero hfinite, Int.cast_zero]⟩
  · rw [h.eq_ofInt hk hne]
    exact isInteger_ofInt hk

theorem IsInteger.eq_ofInt (h : IsInteger k x) (hk : k.natAbs < 2 ^ 53) (hne : k ≠ 0) :
    x = Float.ofInt k := by
  have hround := rounds_self h.isFinite
  rw [h.exact_eq] at hround
  exact hround.eq_ofInt hk hne

/-- The sign tells the zeros apart. -/
theorem IsInteger.eq_ofNat {n : ℕ} (h : IsInteger n x) (hn : n < 2 ^ 53)
    (hsign : sign? x = some .positive) : x = Float.ofNat n := by
  rcases Nat.eq_zero_or_pos n with rfl | hpos
  · have hzero : exact x = 0 := by simpa using h.exact_eq
    cases finite_iff.mpr h.isFinite with
    | zero s =>
      obtain rfl : s = .positive := by simpa [sign?, view_assemble_zero, unpackedSign?] using hsign
      exact ofNat_zero.symm
    | finite s hcanonical =>
      have hsize := congrArg abs (exact_finite s hcanonical)
      rw [hzero, abs_mul, abs_signValue, one_mul, abs_zero, abs_of_pos hcanonical.size_pos] at hsize
      exact absurd hsize.symm hcanonical.size_pos.ne'
  · exact h.eq_ofInt hn (by omega)

/-! ## Operations -/

theorem IsInteger.neg (hx : IsInteger j x) : IsInteger (-j) (-x) :=
  ⟨finite_iff.mp (finite_neg hx.isFinite), by rw [exact_neg hx.isFinite, hx.exact_eq, Int.cast_neg]⟩

theorem IsInteger.add (hx : IsInteger j x) (hy : IsInteger k y) (h : (j + k).natAbs < 2 ^ 53) :
    IsInteger (j + k) (x + y) := by
  have hround := rounds_add hx.isFinite hy.isFinite
  rw [hx.exact_eq, hy.exact_eq, ← Int.cast_add] at hround
  exact hround.isInteger h

theorem IsInteger.sub (hx : IsInteger j x) (hy : IsInteger k y) (h : (j - k).natAbs < 2 ^ 53) :
    IsInteger (j - k) (x - y) := by
  have hround := rounds_sub hx.isFinite hy.isFinite
  rw [hx.exact_eq, hy.exact_eq, ← Int.cast_sub] at hround
  exact hround.isInteger h

theorem IsInteger.mul (hx : IsInteger j x) (hy : IsInteger k y) (h : (j * k).natAbs < 2 ^ 53) :
    IsInteger (j * k) (x * y) := by
  have hround := rounds_mul hx.isFinite hy.isFinite
  rw [hx.exact_eq, hy.exact_eq, ← Int.cast_mul] at hround
  exact hround.isInteger h

theorem IsInteger.div (hx : IsInteger (j * k) x) (hy : IsInteger k y) (hne : k ≠ 0)
    (h : j.natAbs < 2 ^ 53) : IsInteger j (x / y) := by
  have hk : (k : ℚ) ≠ 0 := by exact_mod_cast hne
  have hround := rounds_div hx.isFinite hy.isFinite (hy.exact_eq ▸ hk)
  rw [hx.exact_eq, hy.exact_eq, Int.cast_mul, mul_div_cancel_right₀ _ hk] at hround
  exact hround.isInteger h

/-- A number taken from itself leaves the positive zero. -/
theorem sub_self_eq_zero (hx : x.isFinite) : x - x = Float.ofNat 0 := by
  rw [ofNat_zero, sub_eq]
  cases finite_iff.mpr hx with
  | zero s =>
    rw [view_assemble_zero]
    cases s <;> rfl
  | finite s h =>
    rw [view_assemble_finite s h]
    unfold UnpackedFloat.sub
    simp only [Int.sub_self]
    rfl

/-! ## Rounding and order -/

theorem IsInteger.isWhole (h : IsInteger k x) : isWhole x := (isWhole_iff h.isFinite).mpr ⟨k, h.exact_eq⟩

theorem IsInteger.toInt (h : IsInteger k x) : toInt x = k := by
  have hexact := exact_toInt h.isWhole
  rw [h.exact_eq] at hexact
  exact_mod_cast hexact.symm

theorem IsInteger.round (h : IsInteger k x) : round x = x := by
  have hwhole : (Binary64.ofFloat x).isWhole := by
    have := h.isWhole
    rwa [Number.isWhole, h.isFinite, Bool.true_and] at this
  rw [Number.round, roundWith, hwhole]
  simp

theorem IsInteger.roundedSize (h : IsInteger k x) (hk : k.natAbs < 2 ^ 53) :
    roundedSize x = k.natAbs := roundedSize_of_exact h.isFinite h.exact_eq hk

theorem IsInteger.lt_iff (hx : IsInteger j x) (hy : IsInteger k y) : x < y ↔ j < k := by
  rw [lt_iff_exact_lt hx.isFinite hy.isFinite, hx.exact_eq, hy.exact_eq]
  exact Int.cast_lt

theorem IsInteger.le_iff (hx : IsInteger j x) (hy : IsInteger k y) : x ≤ y ↔ j ≤ k := by
  rw [le_iff_exact_le hx.isFinite hy.isFinite, hx.exact_eq, hy.exact_eq]
  exact Int.cast_le

theorem IsInteger.beq_iff (hx : IsInteger j x) (hy : IsInteger k y) : x == y ↔ j = k := by
  rw [beq_iff_exact_eq hx.isFinite hy.isFinite, hx.exact_eq, hy.exact_eq]
  exact Int.cast_inj

theorem IsInteger.order?_eq (hx : IsInteger j x) (hy : IsInteger k y) :
    order? x y = some (compare j k) := by
  unfold order?
  simp only [hx.lt_iff hy, hy.lt_iff hx, hx.beq_iff hy]
  rcases lt_trichotomy j k with h | h | h
  · rw [if_pos h, compare_lt_iff_lt.mpr h]
  · rw [if_neg h.not_lt, if_pos h, compare_eq_iff_eq.mpr h]
  · rw [if_neg h.not_gt, if_neg h.ne', if_pos h, compare_gt_iff_gt.mpr h]

end

end Rollup.Number
