import Rollup.Number.Rounding
import Rollup.Proofs.Double.Whole

/-! # The numbers that doubles are

A finite double is a rational number, and doubles are ordered as those numbers are.
-/

namespace Rollup

/-- The number itself, with its sign. -/
def Binary64.value (b : Binary64) : ℚ :=
  (if b.negative then -1 else 1) * (b.mantissa * 2 ^ b.exponent)

namespace Number

open Float.Model
open Float.Model.UnpackedFloat (Sign)

/-- The number that a finite double is. -/
def exact (x : Float) : ℚ := (Binary64.ofFloat x).value

def signValue (s : Sign) : ℚ := if isMinus s then -1 else 1

@[simp] theorem abs_signValue (s : Sign) : |signValue s| = 1 := by cases s <;> simp [signValue, isMinus]

@[simp] theorem signValue_positive : signValue .positive = 1 := rfl

@[simp] theorem signValue_negative : signValue .negative = -1 := rfl

@[simp] theorem signValue_neg (s : Sign) : signValue (-s) = -signValue s := by
  cases s
  · exact (neg_neg 1).symm
  · rfl

theorem view_assemble_zero (s : Sign) : view (assemble (.zero s)) = .zero s := by
  have hproper : Proper (.zero s) := trivial
  exact view_assemble_of_proper hproper

theorem view_assemble_finite (s : Sign) {m : ℕ} {e : ℤ} (h : Canonical m e) :
    view (assemble (.finite s m e h.pos)) = .finite s m e h.pos := by
  have hproper : Proper (.finite s m e h.pos) := h
  exact view_assemble_of_proper hproper

theorem abs_eq (x : Float) : x.abs = assemble (view x).abs := rfl

/-- The two kinds of finite doubles. -/
inductive Finite : Float → Prop
  | zero (s : Sign) : Finite (assemble (.zero s))
  | finite (s : Sign) {m : ℕ} {e : ℤ} (h : Canonical m e) : Finite (assemble (.finite s m e h.pos))

theorem finite_iff {x : Float} : Finite x ↔ x.isFinite := by
  constructor
  · rintro (s | ⟨s, h⟩)
    · exact isFinite_assemble trivial
    · exact isFinite_assemble (f := .finite ..) h
  · intro h
    obtain ⟨f, hf, rfl⟩ := exists_proper x
    rw [isFinite_assemble hf] at h
    cases f with
    | infinity => cases h
    | notANumber => cases h
    | zero s => exact .zero s
    | finite s m e hm => exact .finite s hf

@[simp] theorem exact_zero (s : Sign) : exact (assemble (.zero s)) = 0 := by
  simp [exact, ofFloat_zero, Binary64.value]

theorem exact_literal_zero : (0 : Float).isFinite ∧ exact 0 = 0 := by
  have hzero : (0 : Float) = assemble (.zero .positive) := by with_unfolding_all rfl
  rw [hzero]
  exact ⟨finite_iff.mp (.zero .positive), exact_zero .positive⟩

theorem exact_finite (s : Sign) {m : ℕ} {e : ℤ} (h : Canonical m e) :
    exact (assemble (.finite s m e h.pos)) = signValue s * (m * 2 ^ e) := by
  simp [exact, ofFloat_finite h, Binary64.value, signValue]

theorem Canonical.size_pos {m : ℕ} {e : ℤ} (h : Canonical m e) : (0 : ℚ) < m * 2 ^ e :=
  mul_pos (by exact_mod_cast h.pos) (by positivity)

/-! ## Order -/

theorem size_lt {m m' : ℕ} {e e' : ℤ} (h : Canonical m e) (h' : Canonical m' e')
    (hlt : e < e' ∨ e = e' ∧ m < m') : (m * 2 ^ e : ℚ) < m' * 2 ^ e' := by
  rcases hlt with hlt | ⟨rfl, hlt⟩
  · have hfull : 2 ^ 52 ≤ m' := h'.full.resolve_right (by have := h.least; omega)
    have hm : (m : ℚ) < 2 ^ 53 := by exact_mod_cast h.small
    have hm' : (2 : ℚ) ^ 52 ≤ m' := by exact_mod_cast hfull
    calc (m * 2 ^ e : ℚ) < 2 ^ 53 * 2 ^ e := mul_lt_mul_of_pos_right hm (by positivity)
      _ = 2 ^ 52 * 2 ^ (e + 1) := by rw [zpow_add₀ two_ne_zero]; ring
      _ ≤ 2 ^ 52 * 2 ^ e' :=
          mul_le_mul_of_nonneg_left (zpow_le_zpow_right₀ one_le_two (by omega)) (by positivity)
      _ ≤ m' * 2 ^ e' := mul_le_mul_of_nonneg_right hm' (by positivity)
  · exact mul_lt_mul_of_pos_right (by exact_mod_cast hlt) (by positivity)

theorem rank_zero (s : Sign) : rank (assemble (.zero s)) = toLex (0, toLex (0, 0)) := by
  rw [rank, view_assemble_zero]
  rfl

theorem rank_of_canonical (s : Sign) {m : ℕ} {e : ℤ} (h : Canonical m e) :
    rank (assemble (.finite s m e h.pos)) = unpackedRank (.finite s m e h.pos) := by
  rw [rank, view_assemble_finite s h]

section Order

variable {x y : Float}

theorem exact_lt_of_rank_lt (hx : Finite x) (hy : Finite y) (h : rank x < rank y) :
    exact x < exact y := by
  cases hx with
  | zero s =>
    cases hy with
    | zero s' =>
      rw [rank_zero, rank_zero] at h
      exact absurd h (lt_irrefl _)
    | finite s' h' =>
      rw [rank_zero, rank_of_canonical s' h'] at h
      rw [exact_zero, exact_finite s' h']
      cases s' with
      | positive => simpa using h'.size_pos
      | negative => simp [unpackedRank, Prod.Lex.toLex_lt_toLex] at h
  | finite s hm =>
    cases hy with
    | zero s' =>
      rw [rank_of_canonical s hm, rank_zero] at h
      rw [exact_finite s hm, exact_zero]
      cases s with
      | positive => simp [unpackedRank, Prod.Lex.toLex_lt_toLex] at h
      | negative => simpa using hm.size_pos
    | finite s' h' =>
      rw [rank_of_canonical s hm, rank_of_canonical s' h'] at h
      rw [exact_finite s hm, exact_finite s' h']
      cases s <;> cases s' <;> simp [unpackedRank, Prod.Lex.toLex_lt_toLex] at h ⊢
      case positive.positive => exact size_lt hm h' h
      case negative.positive => linarith [hm.size_pos, h'.size_pos]
      case negative.negative => exact size_lt h' hm (h.imp_right fun h => ⟨h.1.symm, h.2⟩)

theorem exact_eq_of_rank_eq (hx : Finite x) (hy : Finite y) (h : rank x = rank y) :
    exact x = exact y := by
  cases hx with
  | zero s =>
    cases hy with
    | zero s' => rw [exact_zero, exact_zero]
    | finite s' h' =>
      rw [rank_zero, rank_of_canonical s' h'] at h
      cases s' <;> simp [unpackedRank] at h
  | finite s hm =>
    cases hy with
    | zero s' =>
      rw [rank_of_canonical s hm, rank_zero] at h
      cases s <;> simp [unpackedRank] at h
    | finite s' h' =>
      rw [rank_of_canonical s hm, rank_of_canonical s' h'] at h
      rw [exact_finite s hm, exact_finite s' h']
      cases s <;> cases s' <;> simp [unpackedRank] at h ⊢ <;> obtain ⟨rfl, rfl⟩ := h <;> rfl

variable (hx : x.isFinite) (hy : y.isFinite)

include hx hy

theorem rank_lt_iff : rank x < rank y ↔ exact x < exact y := by
  refine ⟨exact_lt_of_rank_lt (finite_iff.mpr hx) (finite_iff.mpr hy), fun h => ?_⟩
  rcases lt_trichotomy (rank x) (rank y) with hlt | heq | hgt
  · exact hlt
  · exact absurd (exact_eq_of_rank_eq (finite_iff.mpr hx) (finite_iff.mpr hy) heq) h.ne
  · exact absurd (exact_lt_of_rank_lt (finite_iff.mpr hy) (finite_iff.mpr hx) hgt) h.not_gt

theorem lt_iff_exact_lt : x < y ↔ exact x < exact y := by
  rw [lt_iff_rank_lt (isNaN_of_isFinite hx) (isNaN_of_isFinite hy), rank_lt_iff hx hy]

theorem le_iff_exact_le : x ≤ y ↔ exact x ≤ exact y := by
  rw [le_iff_rank_le (isNaN_of_isFinite hx) (isNaN_of_isFinite hy), ← not_lt, rank_lt_iff hy hx,
    not_lt]

theorem beq_iff_exact_eq : x == y ↔ exact x = exact y := by
  rw [beq_iff_rank_eq (isNaN_of_isFinite hx) (isNaN_of_isFinite hy), le_antisymm_iff,
    ← not_lt, ← not_lt, rank_lt_iff hy hx, rank_lt_iff hx hy, not_lt, not_lt, le_antisymm_iff]

omit hy in
theorem beq_zero_iff : x == 0 ↔ exact x = 0 := by
  rw [beq_iff_exact_eq hx exact_literal_zero.1, exact_literal_zero.2]

end Order

/-! ## Size -/

section Size

variable {x : Float} (hx : x.isFinite)

include hx

theorem finite_neg : Finite (-x) := by
  cases finite_iff.mpr hx with
  | zero s =>
    rw [neg_eq, view_assemble_zero]
    exact .zero (-s)
  | finite s h =>
    rw [neg_eq, view_assemble_finite s h]
    exact .finite (-s) h

theorem exact_neg : exact (-x) = -exact x := by
  cases finite_iff.mpr hx with
  | zero s =>
    rw [neg_eq, view_assemble_zero, exact_zero, neg_zero]
    exact exact_zero (-s)
  | finite s h =>
    rw [neg_eq, view_assemble_finite s h, exact_finite s h, ← neg_mul, ← signValue_neg]
    exact exact_finite (-s) h

theorem isFinite_abs : x.abs.isFinite := by
  cases finite_iff.mpr hx with
  | zero s =>
    rw [abs_eq, view_assemble_zero]
    exact finite_iff.mp (.zero .positive)
  | finite s h =>
    rw [abs_eq, view_assemble_finite s h]
    exact finite_iff.mp (.finite .positive h)

theorem exact_abs : exact x.abs = |exact x| := by
  cases finite_iff.mpr hx with
  | zero s =>
    rw [abs_eq, view_assemble_zero, exact_zero, abs_zero]
    exact exact_zero .positive
  | finite s h =>
    rw [abs_eq, view_assemble_finite s h, exact_finite s h, abs_mul, abs_signValue, one_mul,
      abs_of_pos h.size_pos]
    exact (exact_finite .positive h).trans (one_mul _)

end Size

/-! ## Whole numbers -/

theorem abs_exact (x : Float) :
    |exact x| = (Binary64.ofFloat x).num / (Binary64.ofFloat x).den := by
  rw [exact, Binary64.value, abs_mul, ← num_div_den, abs_of_nonneg (a := (_ / _ : ℚ)) (by positivity)]
  split_ifs <;> simp

theorem den_ne_zero (b : Binary64) : (b.den : ℚ) ≠ 0 := by exact_mod_cast b.den_pos.ne'

theorem exact_toInt {x : Float} (hx : isWhole x) : exact x = toInt x := by
  rw [isWhole, Bool.and_eq_true, Binary64.isWhole, decide_eq_true_iff] at hx
  obtain ⟨q, hq⟩ := Nat.dvd_of_mod_eq_zero hx.2
  have hpart : (Binary64.ofFloat x).wholePart = q := by
    rw [Binary64.wholePart, hq, Nat.mul_div_cancel_left _ (Binary64.den_pos _)]
  have hsize : ((Binary64.ofFloat x).mantissa * 2 ^ (Binary64.ofFloat x).exponent : ℚ) = q := by
    rw [← num_div_den, hq, Nat.cast_mul, mul_div_cancel_left₀ _ (den_ne_zero _)]
  rw [exact, Binary64.value, toInt, Binary64.truncate, Binary64.signed, hsize, hpart]
  split_ifs <;> simp

theorem num_eq_of_exact {x : Float} {k : ℤ} (hk : exact x = k) :
    (Binary64.ofFloat x).num = k.natAbs * (Binary64.ofFloat x).den := by
  have habs := abs_exact x
  rw [hk, eq_div_iff (den_ne_zero _), ← Int.cast_abs, ← Nat.cast_natAbs] at habs
  exact_mod_cast habs.symm

theorem roundedSize_of_exact {x : Float} {n : ℤ} (hx : x.isFinite) (hn : exact x = n)
    (hsize : n.natAbs < 2 ^ 53) : roundedSize x = n.natAbs := by
  have hpos := (Binary64.ofFloat x).den_pos
  have hnearest : (Binary64.ofFloat x).nearestWhole = n.natAbs := by
    rw [Binary64.nearestWhole, num_eq_of_exact hn]
    apply Nat.div_eq_of_lt_le <;> nlinarith
  rw [roundedSize, isNaN_of_isFinite hx, hx, hnearest]
  apply Nat.min_eq_left
  exact hsize.le.trans (by decide)

theorem isWhole_iff {x : Float} (hx : x.isFinite) : isWhole x ↔ ∃ k : ℤ, exact x = k := by
  refine ⟨fun h => ⟨toInt x, exact_toInt h⟩, ?_⟩
  rintro ⟨k, hk⟩
  rw [isWhole, hx, Bool.true_and, Binary64.isWhole, decide_eq_true_iff, num_eq_of_exact hk,
    Nat.mul_mod_left]

theorem exact_ofNat {n : ℕ} (hn : n < 2 ^ 53) : exact (Float.ofNat n) = n := by
  have hwhole := isWholeNumber_ofNat hn
  have habs := abs_exact (Float.ofNat n)
  rw [hwhole.num_eq, Nat.cast_mul, mul_div_cancel_right₀ _ (den_ne_zero _), ← exact_abs
    hwhole.isFinite, hwhole.abs_eq] at habs
  exact habs

theorem exact_literal (n : ℕ) [n.AtLeastTwo] (hn : n < 2 ^ 53) :
    (OfNat.ofNat n : Float).isFinite ∧ exact (OfNat.ofNat n : Float) = OfNat.ofNat n :=
  ⟨(isWholeNumber_ofNat hn).isFinite, exact_ofNat hn⟩

theorem exact_literal_one : (1 : Float).isFinite ∧ exact 1 = 1 := by
  have hone : (1 : Float) = Float.ofNat 1 := rfl
  rw [hone]
  exact ⟨(isWholeNumber_ofNat (by decide)).isFinite, by rw [exact_ofNat (by decide)]; norm_num⟩

theorem exact_ofInt {k : ℤ} (hk : k.natAbs < 2 ^ 53) :
    (Float.ofInt k).isFinite ∧ exact (Float.ofInt k) = k := by
  cases k with
  | ofNat n => exact ⟨(isWholeNumber_ofNat hk).isFinite, exact_ofNat hk⟩
  | negSucc n =>
    have hn : n + 1 < 2 ^ 53 := hk
    have hneg : Float.ofInt (.negSucc n) = -Float.ofNat (n + 1) := rfl
    have hfinite := (isWholeNumber_ofNat hn).isFinite
    refine ⟨finite_iff.mp (hneg ▸ finite_neg hfinite), ?_⟩
    rw [hneg, exact_neg hfinite, exact_ofNat hn, Int.cast_negSucc, Nat.cast_succ]

/-- The doubles between whole numbers are small. -/
theorem abs_exact_lt_of_not_isWhole {x : Float} (hx : x.isFinite) (hwhole : isWhole x = false) :
    |exact x| < 2 ^ 52 := by
  rw [isWhole, hx, Bool.true_and] at hwhole
  cases finite_iff.mpr hx with
  | zero s => simp
  | @finite s m e h =>
    rw [exact_finite s h, abs_mul, abs_signValue, one_mul, abs_of_pos h.size_pos]
    rw [ofFloat_finite h] at hwhole
    have he : e ≤ -1 := by
      by_contra he
      have hden : (-e).toNat = 0 := by omega
      simp [Binary64.isWhole, Binary64.den, hden, Nat.mod_one] at hwhole
    have hm : (m : ℚ) < 2 ^ 53 := by exact_mod_cast h.small
    calc (m * 2 ^ e : ℚ) < 2 ^ 53 * 2 ^ e := mul_lt_mul_of_pos_right hm (by positivity)
      _ ≤ 2 ^ 53 * 2 ^ (-1 : ℤ) :=
          mul_le_mul_of_nonneg_left (zpow_le_zpow_right₀ one_le_two he) (by positivity)
      _ = 2 ^ 52 := by norm_num

theorem floor_eq (x : Float) : (Binary64.ofFloat x).floor = ⌊exact x⌋ := by
  have hvalue : exact x = ((Binary64.ofFloat x).signed (Binary64.ofFloat x).num : ℤ) /
      (Binary64.ofFloat x).den := by
    rw [exact, Binary64.value, ← num_div_den, Binary64.signed]
    split_ifs <;> push_cast <;> ring
  rw [hvalue, Rat.floor_intCast_div_natCast, Binary64.floor, Int.fdiv_eq_ediv_of_nonneg]
  exact Int.natCast_nonneg _

theorem exact_ofWhole {negative : Bool} {k : ℤ} (hk : k.natAbs < 2 ^ 53) :
    (ofWhole negative k).isFinite ∧ exact (ofWhole negative k) = k := by
  have hzero : (-0.0 : Float) = assemble (.zero .negative) := by with_unfolding_all rfl
  unfold ofWhole
  split
  case isTrue h => exact ⟨finite_iff.mp (hzero ▸ .zero .negative), by rw [hzero, exact_zero, h.1]; rfl⟩
  case isFalse => exact exact_ofInt hk

theorem exact_floor {x : Float} (hx : x.isFinite) :
    (floor x).isFinite ∧ exact (floor x) = ⌊exact x⌋ := by
  rw [floor, roundWith]
  cases hwhole : (Binary64.ofFloat x).isWhole with
  | true =>
    have hx' : isWhole x := by rw [isWhole, hx, hwhole]; rfl
    rw [hx, Bool.not_true, Bool.and_false, if_neg Bool.false_ne_true]
    exact ⟨hx, by rw [exact_toInt hx', Int.floor_intCast]⟩
  | false =>
    have hx' : isWhole x = false := by rw [isWhole, hx, hwhole]; rfl
    have hsmall := abs_lt.mp (abs_exact_lt_of_not_isWhole hx hx')
    have hlow : -(2 ^ 52 : ℤ) ≤ ⌊exact x⌋ := Int.le_floor.mpr (by push_cast; linarith)
    have hhigh : ⌊exact x⌋ < (2 ^ 52 : ℤ) := Int.floor_lt.mpr (by push_cast; linarith)
    rw [hx, Bool.not_false, Bool.and_true, if_pos rfl, floor_eq]
    exact exact_ofWhole (by omega)

theorem isFinite_of_isFinite_floor {x : Float} (h : (floor x).isFinite) : x.isFinite := by
  by_contra hx
  rw [Bool.not_eq_true] at hx
  rw [floor, roundWith, hx, Bool.false_and, if_neg Bool.false_ne_true, hx] at h
  cases h

theorem toInt_floor {x : Float} (hx : x.isFinite) : toInt (floor x) = ⌊exact x⌋ := by
  obtain ⟨hfinite, hexact⟩ := exact_floor hx
  have h := exact_toInt ((isWhole_iff hfinite).mpr ⟨_, hexact⟩)
  rw [hexact] at h
  exact_mod_cast h.symm

end Number

end Rollup
