import Rollup.Format.Basic
import Rollup.Proofs.Double.Order
import Rollup.Proofs.Double.Shortest

/-! # Whole numbers as doubles

A whole number below `2 ^ 53` is a double, and the default format writes one below `10 ^ 15` in
digits alone.
-/

namespace Rollup.Number

open Float.Model
open Float.Model.UnpackedFloat (Sign)

/-! ## The double of a whole number -/

/-- A positive whole number, with a mantissa of full length. -/
def wholeBinary (n : ℕ) : Binary64 := ⟨false, n <<< (52 - n.log2), -(52 - n.log2 : ℕ)⟩

section

variable {n : ℕ} (hn : 0 < n) (hlt : n < 2 ^ 53)

include hn hlt

theorem canonical_wholeBinary : Canonical (wholeBinary n).mantissa (wholeBinary n).exponent :=
  canonical_shiftLeft hn hlt

/-- The whole number lies in the interval of the double that it is, so that reading finds that one. -/
theorem holds_wholeBinary : (Interval.of (wholeBinary n)).Holds n := by
  have hself := holds_self (canonical_wholeBinary hn hlt).pos
  have hwhole : ((wholeBinary n).mantissa : ℚ) * 2 ^ (wholeBinary n).exponent = n :=
    shiftLeft_value n (52 - n.log2)
  rwa [hwhole] at hself

theorem ofScientific_whole {m k : ℕ} (h : m * 10 ^ k = n) :
    (OfScientific.ofScientific m false k : Float) =
      assemble (.finite .positive (wholeBinary n).mantissa (wholeBinary n).exponent
        (canonical_wholeBinary hn hlt).pos) := by
  have hm : 0 < m := by
    rcases Nat.eq_zero_or_pos m with rfl | hm
    · omega
    · exact hm
  have hvalue : (m : ℚ) * 10 ^ (k : ℤ) = n := by exact_mod_cast h
  have hself := holds_wholeBinary hn hlt
  rw [← hvalue] at hself
  exact ofScientific_eq (canonical_wholeBinary hn hlt) hm rfl hself

theorem ofNat_of_pos :
    Float.ofNat n = assemble (.finite .positive (wholeBinary n).mantissa (wholeBinary n).exponent
      (canonical_wholeBinary hn hlt).pos) :=
  ofScientific_whole hn hlt (Nat.mul_one n)

end

theorem ofNat_zero : Float.ofNat 0 = assemble (.zero .positive) := by with_unfolding_all rfl

/-! ## Reading whole numbers -/

theorem length_ofNatPadded {width n : ℕ} (hwidth : 0 < width) (h : n < 10 ^ width) :
    (Text.ofNatPadded width n).length = width := by
  have hlength : (Text.ofNat n).length ≤ width := by
    rcases Nat.eq_zero_or_pos n with rfl | hn
    · exact hwidth
    · have hpow := (ten_pow_length_le hn).trans_lt h
      have := (Nat.pow_lt_pow_iff_right (by decide : 1 < 10)).mp hpow
      omega
  rw [Text.ofNatPadded, List.length_append, List.length_replicate]
  omega

theorem isDecimal_ofNatPadded (width n : ℕ) : IsDecimal (Text.ofNatPadded width n) [] where
  wholeNe := List.append_ne_nil_of_right_ne_nil _ Nat.toDigits_ne_nil
  wholeDigits _ := isDigit_of_mem_ofNatPadded
  fractionDigits := by simp

/-- The digits of a whole number are read as that number. -/
theorem value?_ofNatPadded (width : ℕ) {n : ℕ} (hn : n < 2 ^ 53) :
    Numeral.value? ⟨Text.ofNatPadded width n, [], 0⟩ = some (Float.ofNat n) := by
  have hdecimal := isDecimal_ofNatPadded width n
  have hvalue : (Text.digitsToNat (Text.ofNatPadded width n ++ []) *
      10 ^ (-(([] : Text).length : ℤ)) : ℚ) = n := by
    simp [digitsToNat_ofNatPadded]
  rcases Nat.eq_zero_or_pos n with rfl | hpos
  · rw [ofNat_zero]
    exact value?_of_zero hdecimal (by rw [hvalue, Nat.cast_zero])
  · have hself := holds_wholeBinary hpos hn
    rw [← hvalue] at hself
    rw [ofNat_of_pos hpos hn]
    exact value?_of_holds hdecimal (canonical_wholeBinary hpos hn) hself

/-! ## Looking at whole numbers -/

/-- What a double shows of a whole number. -/
structure IsWholeNumber (n : ℕ) (x : Float) : Prop where
  isFinite : x.isFinite
  abs_eq : x.abs = x
  nonnegative : (Binary64.ofFloat x).negative = false
  num_eq : (Binary64.ofFloat x).num = n * (Binary64.ofFloat x).den

theorem abs_assemble {f : UnpackedFloat} (hf : Proper f) (habs : f.abs = f) :
    (assemble f).abs = assemble f := by
  have h : (assemble f).abs = assemble (view (assemble f)).abs := rfl
  rw [h, view_assemble_of_proper hf, habs]

theorem isFinite_assemble {f : UnpackedFloat} (hf : Proper f) :
    (assemble f).isFinite = f.isFinite := by
  have h : (assemble f).isFinite = (view (assemble f)).isFinite := rfl
  rw [h, view_assemble_of_proper hf]

theorem isInf_of_isFinite {x : Float} (h : x.isFinite) : x.isInf = false := by
  change (view x).isFinite at h
  change (view x).isInf = false
  cases hx : view x <;> rw [hx] at h <;> first | rfl | cases h

theorem isWholeNumber_ofNat {n : ℕ} (hlt : n < 2 ^ 53) : IsWholeNumber n (Float.ofNat n) := by
  rcases Nat.eq_zero_or_pos n with rfl | hn
  · rw [ofNat_zero]
    exact
      { isFinite := isFinite_assemble trivial
        abs_eq := abs_assemble trivial rfl
        nonnegative := by rw [ofFloat_zero]; rfl
        num_eq := by rw [ofFloat_zero, Binary64.num]; simp }
  · have hproper : Proper (.finite .positive _ _ (canonical_wholeBinary hn hlt).pos) :=
      canonical_wholeBinary hn hlt
    have hfloat : Binary64.ofFloat (Float.ofNat n) = wholeBinary n := by
      rw [ofNat_of_pos hn hlt]
      exact ofFloat_finite (canonical_wholeBinary hn hlt)
    refine ⟨?_, ?_, ?_, ?_⟩
    · rw [ofNat_of_pos hn hlt, isFinite_assemble hproper]
      rfl
    · rw [ofNat_of_pos hn hlt, abs_assemble hproper rfl]
    · rw [hfloat]
      rfl
    · have hexponent : (-(52 - n.log2 : ℕ) : ℤ).toNat = 0 := by omega
      rw [hfloat, Binary64.num, Binary64.den, wholeBinary]
      dsimp only
      rw [hexponent, Nat.shiftLeft_eq, neg_neg, Int.toNat_natCast]
      exact Nat.mul_one _

/-! ## Comparing whole numbers -/

theorem rank_finite {b : Binary64} (hb : Canonical b.mantissa b.exponent) :
    rank (assemble (.finite .positive b.mantissa b.exponent hb.pos)) =
      toLex (1, toLex (b.exponent, (b.mantissa : ℤ))) := by
  have hproper : Proper (.finite .positive b.mantissa b.exponent hb.pos) := hb
  rw [rank, view_assemble_of_proper hproper]
  rfl

theorem wholeBinary_lt {n k : ℕ} (hn : 0 < n) (hnk : n < k) (hk : k < 2 ^ 53) :
    (wholeBinary n).exponent < (wholeBinary k).exponent ∨
      (wholeBinary n).exponent = (wholeBinary k).exponent ∧
        (wholeBinary n).mantissa < (wholeBinary k).mantissa := by
  have hlog : n.log2 ≤ k.log2 :=
    (Nat.le_log2 (by omega)).mpr (le_trans (Nat.log2_self_le hn.ne') hnk.le)
  have hlogk : k.log2 < 53 := (Nat.log2_lt (by omega)).mpr hk
  unfold wholeBinary
  dsimp only
  rcases hlog.lt_or_eq with hlog | hlog
  · left
    omega
  · right
    rw [hlog, Nat.shiftLeft_eq, Nat.shiftLeft_eq]
    exact ⟨rfl, Nat.mul_lt_mul_of_pos_right hnk (by positivity)⟩

theorem rank_ofNat_lt {n k : ℕ} (hnk : n < k) (hk : k < 2 ^ 53) :
    rank (Float.ofNat n) < rank (Float.ofNat k) := by
  rw [ofNat_of_pos (by omega) hk, rank_finite (canonical_wholeBinary (by omega) hk)]
  rcases Nat.eq_zero_or_pos n with rfl | hn
  · rw [ofNat_zero]
    exact Prod.Lex.left _ _ (by decide)
  · rw [ofNat_of_pos hn (hnk.trans hk), rank_finite (canonical_wholeBinary hn (hnk.trans hk))]
    refine Prod.Lex.right _ ?_
    rcases wholeBinary_lt hn hnk hk with h | ⟨he, hm⟩
    · exact Prod.Lex.left _ _ h
    · rw [he]
      exact Prod.Lex.right _ (by exact_mod_cast hm)

/-- The bound up to which the default style writes whole numbers in digits. -/
theorem ofNat_lt_bound {n : ℕ} (h : n < 10 ^ 15) : Float.ofNat n < 1e15 := by
  have hbound : (1e15 : Float) = Float.ofNat (10 ^ 15) :=
    (ofScientific_whole (by decide) (by decide) (by decide)).trans
      (ofNat_of_pos (by decide) (by decide)).symm
  have hfinite : ∀ k : ℕ, k < 2 ^ 53 → (Float.ofNat k).isNaN = false := fun k hk =>
    isNaN_of_isFinite (isWholeNumber_ofNat hk).isFinite
  rw [hbound, lt_iff_rank_lt (hfinite n (by omega)) (hfinite _ (by decide))]
  exact rank_ofNat_lt h (by decide)

/-! ## Writing whole numbers -/

theorem IsWholeNumber.isWhole {n : ℕ} {x : Float} (h : IsWholeNumber n x) : isWhole x := by
  rw [Number.isWhole, Binary64.isWhole, h.isFinite, h.num_eq]
  simp

theorem IsWholeNumber.toInt {n : ℕ} {x : Float} (h : IsWholeNumber n x) : toInt x = n := by
  rw [Number.toInt, Binary64.truncate, Binary64.wholePart, h.num_eq,
    Nat.mul_div_cancel _ (Binary64.den_pos _), Binary64.signed, h.nonnegative]
  rfl

theorem general_ofNat (precision : ℕ) {n : ℕ} (h : n < 10 ^ 15) :
    general precision (Float.ofNat n) = Text.ofNat n := by
  have hwhole := isWholeNumber_ofNat (h.trans (by decide : 10 ^ 15 < 2 ^ 53))
  have hcondition : (isWhole (Float.ofNat n) && decide ((Float.ofNat n).abs < 1e15)) = true := by
    rw [hwhole.isWhole, hwhole.abs_eq, Bool.true_and, decide_eq_true_iff]
    exact ofNat_lt_bound h
  rw [general_eq, if_pos hcondition, hwhole.toInt]
  rfl

end Rollup.Number

namespace Rollup

theorem Value.display_ofNat {n : ℕ} (h : n < 10 ^ 15) :
    (Value.number (Float.ofNat n)).display = Text.ofNat n := by
  have hwhole := Number.isWholeNumber_ofNat (h.trans (by decide : 10 ^ 15 < 2 ^ 53))
  rw [Value.display, CellFormat.value, CellFormat.number, CellFormat.numberBy,
    if_neg (Bool.eq_false_iff.mp (Number.isNaN_of_isFinite hwhole.isFinite)),
    if_neg (Bool.eq_false_iff.mp (Number.isInf_of_isFinite hwhole.isFinite))]
  exact Number.general_ofNat 12 h

end Rollup
