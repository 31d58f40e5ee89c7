import Mathlib.Analysis.SpecialFunctions.Log.Base
import Rollup.Proofs.Double.Power
import Rollup.Proofs.Format.Significant

/-! # Formatted numbers are literals

The styles write finite numbers as literals, which can be read as numbers again. Engineering
notation divides by a power of ten first, and the quotient by a power below the doubles is infinite.
-/

namespace Rollup

namespace Number

open Float.Model.UnpackedFloat (Sign)

/-! ## Literals -/

theorem isSome_read?_signText (negative : Bool) {whole fraction power : Text} {exponent : ℤ}
    (hdecimal : IsDecimal whole fraction) (hpower : Numeral.IsExponent power exponent) :
    (read? (signText negative ++ (whole ++ (pointed fraction ++ power)))).isSome := by
  have hvalue : Numeral.value? ⟨whole, fraction, exponent⟩ ≠ none :=
    fun hnone => hdecimal.wholeNe (Numeral.value?_eq_none_iff.mp hnone).1
  obtain ⟨x, hx⟩ := Option.ne_none_iff_exists'.mp hvalue
  have hread := Numeral.read?_eq_some_iff.mpr ⟨_, hdecimal.writtenAs hpower, hx⟩
  have hnumeral := Option.isSome_of_eq_some hread
  rw [isSome_read?_iff, mem_expression]
  cases negative with
  | false => exact .inl hnumeral
  | true => exact .inr ⟨'-', _, .inr rfl, rfl, hnumeral⟩

theorem Denotes.isSome_read? {t : Text} {q : ℚ} (h : Denotes t q) : (read? t).isSome := by
  obtain ⟨negative, hnumeral⟩ := h
  obtain ⟨hdecimal, -, hpower⟩ := hnumeral
  exact isSome_read?_signText negative hdecimal hpower

theorem isSome_read?_withPoint (negative : Bool) (places n : ℕ) {power : Text} {exponent : ℤ}
    (hpower : Numeral.IsExponent power exponent) :
    (read? (signText negative ++ withPoint places n ++ power)).isSome := by
  obtain ⟨whole, fraction, htext, hdecimal, -, -⟩ := exists_withPoint places n
  rw [htext, List.append_assoc, List.append_assoc]
  exact isSome_read?_signText negative hdecimal hpower

theorem isSome_read?_ofInt (k : ℤ) : (read? (Text.ofInt k)).isSome := by
  have hdecimal (n : ℕ) : IsDecimal (Text.ofNat n) [] :=
    ⟨Nat.toDigits_ne_nil, fun _ => isDigit_of_mem_ofNat, by simp⟩
  have h (negative : Bool) (n : ℕ) : (read? (signText negative ++ Text.ofNat n)).isSome := by
    simpa [pointed] using isSome_read?_signText negative (hdecimal n) .none
  cases k with
  | ofNat n => exact h false n
  | negSucc n => exact h true (n + 1)

section Finite

variable {n : Float} (hn : n.isFinite)

include hn

theorem isSome_read?_fixed (digits : ℕ) {power : Text} {exponent : ℤ}
    (hpower : Numeral.IsExponent power exponent) : (read? (fixed digits n ++ power)).isSome := by
  rw [fixed_eq hn]
  exact isSome_read?_withPoint _ _ _ hpower

theorem isSome_read?_scientific (digits : ℕ) : (read? (scientific digits n)).isSome := by
  rw [scientific, if_pos hn, scientificParts_eq hn]
  exact isSome_read?_withPoint _ _ _ (isExponent_ofInt _)

theorem isSome_read?_general {p : ℕ} (hp : 1 ≤ p) : (read? (general p n)).isSome := by
  by_cases h : ∃ k : ℤ, exact n = k ∧ |k| < 10 ^ 15
  · obtain ⟨k, hk, hsmall⟩ := h
    rw [general_eq_ofInt hn p hk hsmall]
    exact isSome_read?_ofInt k
  · exact (denotes_general hn hp fun k hk => not_lt.mp fun hlt => h ⟨k, hk, hlt⟩).isSome_read?

end Finite

/-- The text of an infinite number is no literal, whatever follows. -/
theorem read?_fixed_infinity (s : Sign) (digits : ℕ) (power : Text) :
    read? (fixed digits (assemble (.infinity s)) ++ power) = none := by
  have hnan : (assemble (.infinity s)).isNaN = false := by
    change (view (assemble (.infinity s))).isNaN = false
    rw [view_assemble_infinity]
    rfl
  rw [fixed, isFinite_assemble_infinity, if_neg Bool.false_ne_true, nonFiniteText, hnan,
    if_neg Bool.false_ne_true]
  have hword : Numeral.read? ('i' :: 'n' :: 'f' :: power) = none :=
    Numeral.read?_eq_none rfl (by decide) _
  cases (Binary64.ofFloat (assemble (.infinity s))).negative with
  | false => exact hword
  | true => exact congrArg (Option.map (- ·)) hword

/-! ## Engineering notation -/

/-- The function is a decimal logarithm up to an error of three quarters. -/
structure IsDecimalLog (log10 : Float → Float) : Prop where
  isFinite {x : Float} (hx : x.isFinite) (hpos : 0 < exact x) : (log10 x).isFinite
  near {x : Float} (hx : x.isFinite) (hpos : 0 < exact x) :
    |(exact (log10 x) : ℝ) - Real.logb 10 (exact x : ℝ)| ≤ 3 / 4

theorem le_logb {q : ℚ} {k : ℤ} (h : 10 ^ k ≤ q) : (k : ℝ) ≤ Real.logb 10 q := by
  have hpos : 0 < q := lt_of_lt_of_le (by positivity) h
  rw [Real.le_logb_iff_rpow_le (by norm_num) (by exact_mod_cast hpos), Real.rpow_intCast]
  have hcast := (Rat.cast_le (K := ℝ)).mpr h
  rwa [Rat.cast_zpow, Rat.cast_ofNat] at hcast

theorem logb_lt {q : ℚ} {k : ℤ} (hpos : 0 < q) (h : q < 10 ^ k) : Real.logb 10 q < k := by
  rw [Real.logb_lt_iff_lt_rpow (by norm_num) (by exact_mod_cast hpos), Real.rpow_intCast]
  have hcast := (Rat.cast_lt (K := ℝ)).mpr h
  rwa [Rat.cast_zpow, Rat.cast_ofNat] at hcast

section Exponent

variable {log10 : Float → Float} (hlog : IsDecimalLog log10) {n : Float} (hn : n.isFinite)
  (hzero : exact n ≠ 0)

include hlog hn hzero

/-- The exponent is taken from a third `third` of the logarithm `l`, which is rounded. -/
theorem exists_third : ∃ third l : ℚ, engineeringExponent log10 n = ⌊third⌋ * 3 ∧
    (0 ≤ l → 0 ≤ third) ∧ |third - l / 3| ≤ |l / 3| / 10 ^ 15 + 1 / 10 ^ 30 ∧
    |(l : ℝ) - Real.logb 10 (|exact n| : ℚ)| ≤ 3 / 4 := by
  have hpos : 0 < exact n.abs := by
    rw [exact_abs hn]
    exact abs_pos.mpr hzero
  have hfinite := hlog.isFinite (isFinite_abs hn) hpos
  have hnear := hlog.near (isFinite_abs hn) hpos
  rw [exact_abs hn] at hnear
  obtain ⟨hthree, hexact⟩ := exact_literal 3 (by decide)
  have hrounds := rounds_div hfinite hthree (by rw [hexact]; norm_num)
  rw [hexact] at hrounds
  have hquotient : (log10 n.abs / 3).isFinite := by
    refine hrounds.isFinite ?_
    rw [abs_div, abs_of_pos (by norm_num : (0 : ℚ) < 3)]
    exact (div_le_self (abs_nonneg _) (by norm_num)).trans (abs_exact_le_largest hfinite)
  refine ⟨exact (log10 n.abs / 3), exact (log10 n.abs), ?_, fun hl => ?_,
    hrounds.abs_sub_le hquotient, hnear⟩
  · rw [engineeringExponent, toInt_floor hquotient]
  · exact hrounds.nonneg hquotient (by positivity)

theorem abs_lt_of_engineeringExponent_neg (h : engineeringExponent log10 n < 0) :
    |exact n| < 10 := by
  obtain ⟨third, l, hexponent, hnonneg, -, hlogb⟩ := exists_third hlog hn hzero
  by_contra hten
  have hone : ((1 : ℤ) : ℝ) ≤ Real.logb 10 (|exact n| : ℚ) := le_logb (by simpa using hten)
  have hl : (0 : ℝ) ≤ l := by
    rw [Int.cast_one] at hone
    linarith [(abs_le.mp hlogb).1]
  have hfloor := Int.floor_nonneg.mpr (hnonneg (by exact_mod_cast hl))
  omega

/-- No number from `10 ^ -308` on has a lower exponent than the least power. -/
theorem le_engineeringExponent (h : 10 ^ (-308 : ℤ) ≤ |exact n|) :
    -309 ≤ engineeringExponent log10 n := by
  obtain ⟨third, l, hexponent, hnonneg, hthird, hlogb⟩ := exists_third hlog hn hzero
  have hl : ((-1235 / 4 : ℚ) : ℝ) ≤ l := by
    have hlow := le_logb h
    rw [Int.cast_neg, Int.cast_ofNat] at hlow
    push_cast
    linarith [(abs_le.mp hlogb).1]
  have hfloor : -103 ≤ ⌊third⌋ := by
    rw [Int.le_floor]
    rcases le_total 0 l with hpos | hneg
    · exact le_trans (by norm_num) (hnonneg hpos)
    · rw [abs_of_nonpos (by linarith : l / 3 ≤ 0)] at hthird
      have hl' : -1235 / 4 ≤ l := by exact_mod_cast hl
      push_cast
      linarith [(abs_le.mp hthird).1]
  omega

theorem engineeringExponent_lt (h : |exact n| < 10 ^ (-310 : ℤ)) :
    engineeringExponent log10 n < -309 := by
  obtain ⟨third, l, hexponent, -, hthird, hlogb⟩ := exists_third hlog hn hzero
  have hl : (l : ℝ) ≤ ((-1237 / 4 : ℚ) : ℝ) := by
    have hhigh := logb_lt (abs_pos.mpr hzero) h
    rw [Int.cast_neg, Int.cast_ofNat] at hhigh
    push_cast
    linarith [(abs_le.mp hlogb).2]
  have hfloor : ⌊third⌋ < -103 := by
    have hl' : l ≤ -1237 / 4 := by exact_mod_cast hl
    rw [abs_of_nonpos (by linarith : l / 3 ≤ 0)] at hthird
    rw [Int.floor_lt]
    push_cast
    linarith [(abs_le.mp hthird).2]
  omega

end Exponent

section Engineering

variable (log10 : Float → Float) {n : Float} (hn : n.isFinite) (hzero : exact n ≠ 0) (digits : ℕ)

include hn hzero

/-- The exponent that is written is three more where the mantissa rounds to a thousand. -/
theorem exists_engineering : ∃ exponent : ℤ,
    (exponent = engineeringExponent log10 n ∨ exponent = engineeringExponent log10 n + 3) ∧
    (digits ≤ 306 → engineeringExponent log10 n = -309 → exponent = -306) ∧
    (Formatter.unlimited.engineering log10 digits n).run =
      fixed digits (n / powerOfTen exponent) ++ 'e' :: Text.ofInt exponent := by
  have hbeq : (n == 0) = false := by rwa [← Bool.not_eq_true, beq_zero_iff hn]
  unfold Formatter.engineering
  rw [hbeq, if_neg Bool.false_ne_true]
  refine ⟨_, ?_, fun hdigits hleast => ?_, rfl⟩
  · split
    · exact .inr rfl
    · exact .inl rfl
  · -- The power itself is zero, so that the mantissa is infinite.
    obtain ⟨s, hs⟩ := div_powerOfTen_neg_eq_infinity hn hzero (k := 309) le_rfl
    obtain ⟨hfinite, -⟩ := powerOfTen_le hdigits
    have hpos := zero_lt_one.trans_le ((approximates_powerOfTen digits).one_le_exact hfinite)
    have habs : (n / powerOfTen (-(309 : ℕ))).abs = infinity := by
      rw [hs, abs_assemble_infinity]
    have hround : round infinity = infinity := by
      rw [round, roundWith, isFinite_infinity, Bool.false_and, if_neg Bool.false_ne_true]
    rw [hleast, show (-309 : ℤ) = -(309 : ℕ) from rfl, habs, (infinity_mul hfinite hpos).1, hround,
      infinity_div hfinite hpos, if_pos]
    · rfl
    · decide +kernel

end Engineering

theorem isSome_read?_engineering_iff {log10 : Float → Float} (hlog : IsDecimalLog log10) {n : Float}
    (hn : n.isFinite) {digits : ℕ} (hdigits : digits ≤ 306) :
    (read? (Formatter.unlimited.engineering log10 digits n).run).isSome ↔
      ¬ (exact n ≠ 0 ∧ engineeringExponent log10 n < -309) := by
  by_cases hzero : exact n = 0
  · have hbeq : (n == 0) = true := (beq_zero_iff hn).mpr hzero
    unfold Formatter.engineering
    rw [if_pos hbeq]
    have h := isSome_read?_fixed exact_literal_zero.1 digits .none
    rw [List.append_nil] at h
    exact iff_of_true h (by simp [hzero])
  obtain ⟨exponent, hexponent, hleast, htext⟩ := exists_engineering log10 hn hzero digits
  obtain ⟨j, hj⟩ : ∃ j, engineeringExponent log10 n = j * 3 := ⟨_, rfl⟩
  rw [htext]
  rcases lt_or_ge (engineeringExponent log10 n) (-309) with hlow | hhigh
  · -- The exponent is a multiple of three, so that three more is still beyond the powers.
    obtain ⟨k, hk⟩ := Int.eq_ofNat_of_zero_le (by omega : 0 ≤ -exponent)
    obtain rfl : exponent = -k := by omega
    obtain ⟨s, hs⟩ := div_powerOfTen_neg_eq_infinity hn hzero (k := k) (by omega)
    rw [hs, read?_fixed_infinity]
    simp [hzero, hlow]
  · refine iff_of_true (isSome_read?_fixed ?_ digits (isExponent_ofInt _)) fun h => by omega
    have hle : -306 ≤ exponent := by
      rcases hhigh.lt_or_eq with hlt | heq
      · omega
      · exact (hleast hdigits heq.symm).ge
    rcases le_or_gt 0 exponent with hpos | hneg
    · obtain ⟨k, rfl⟩ := Int.eq_ofNat_of_zero_le hpos
      exact isFinite_div_powerOfTen hn k
    · obtain ⟨k, hk⟩ := Int.eq_ofNat_of_zero_le (by omega : 0 ≤ -exponent)
      obtain rfl : exponent = -k := by omega
      have hsmall := abs_lt_of_engineeringExponent_neg hlog hn hzero (by omega)
      exact isFinite_div_powerOfTen_neg hn (hsmall.le.trans (by norm_num)) (by omega) (by omega)

end Number

/-! ## Formats -/

namespace CellFormat

open Number

section Styles

variable {log10 : Float → Float} (hlog : IsDecimalLog log10) {n : Float} (hn : n.isFinite)

include hlog hn

theorem isSome_read?_styled_iff {style : FloatStyle} {precision : ℕ} (hprecision : 1 ≤ precision)
    (hdigits : ∀ digits, style = .engineering digits → digits ≤ maxDigits) :
    (read? (Formatter.unlimited.styled log10 style precision n).run).isSome ↔
      ¬ ((∃ digits, style = .engineering digits) ∧
        exact n ≠ 0 ∧ engineeringExponent log10 n < -309) := by
  cases style with
  | normal => exact iff_of_true (isSome_read?_general hn hprecision) (by simp)
  | fixed digits =>
    have h : (read? (fixed digits n)).isSome := by simpa using isSome_read?_fixed hn digits .none
    exact iff_of_true h (by simp)
  | scientific digits => exact iff_of_true (isSome_read?_scientific hn digits) (by simp)
  | engineering digits =>
    have hle : digits ≤ 306 := (hdigits digits rfl).trans (by decide)
    have h := isSome_read?_engineering_iff hlog hn hle
    rw [Formatter.styled]
    simpa using h

/-- A format without a pattern and without fractions gives a text for every finite number whose
decimals can be formatted. Each is a literal, except that engineering notation has no power of ten
for exponents below -309. Only numbers below `10 ^ -308` have such an exponent, and all below
`10 ^ -310` do. -/
theorem isSome_read?_number_iff {f : CellFormat} {defaults : FormatDefaults}
    (hprintf : f.printf = none) (hfractions : f.fractions.getD defaults.preferFraction = false)
    (hdigits : ∀ digits, f.floatStyle.getD defaults.floatStyle = .engineering digits →
      digits ≤ maxDigits) :
    ((f.numberBy .limited log10 defaults n).isSome ↔ (f.floatStyle.getD defaults.floatStyle).Fits
      (max (f.precision.getD defaults.precision) 1) (exact n)) ∧
    (∀ t, f.numberBy .limited log10 defaults n = some t → ((read? t).isSome ↔
      ¬ ((∃ digits, f.floatStyle.getD defaults.floatStyle = .engineering digits) ∧
        exact n ≠ 0 ∧ engineeringExponent log10 n < -309))) ∧
    (exact n ≠ 0 → engineeringExponent log10 n < -309 → |exact n| < 10 ^ (-308 : ℤ)) ∧
    (exact n ≠ 0 → |exact n| < 10 ^ (-310 : ℤ) → engineeringExponent log10 n < -309) := by
  have hp : 1 ≤ max (f.precision.getD defaults.precision) 1 := le_max_right _ _
  have hgiven := givenIf_styled hn hp log10 (f.floatStyle.getD defaults.floatStyle)
  rw [numberBy_eq_styled _ log10 hprintf hfractions hn]
  refine ⟨hgiven.isSome_iff, fun t ht => ?_, fun hzero hlow => ?_, engineeringExponent_lt hlog hn⟩
  · obtain ⟨-, rfl⟩ := hgiven.eq_some_iff.mp ht
    exact isSome_read?_styled_iff hlog hn hp hdigits
  · exact not_le.mp fun hle => absurd (le_engineeringExponent hlog hn hzero hle) hlow.not_ge

end Styles

/-- The middle of the decade, which is near enough to be a decimal logarithm. -/
def decadeLog (x : Float) : Float :=
  Float.ofInt (2 * decimalExponent (Binary64.ofFloat x).num (Binary64.ofFloat x).den + 1) / 2

theorem zpow_le_exact {x : Float} (hx : x.isFinite) (hpos : 0 < exact x) :
    (10 : ℚ) ^ (-1074 : ℤ) ≤ exact x := by
  cases finite_iff.mpr hx with
  | zero s => exact absurd hpos (exact_zero s).not_gt
  | @finite s m e h =>
    rw [exact_finite s h] at hpos ⊢
    obtain rfl := eq_positive h.size_pos hpos.le
    have hone : (1 : ℚ) ≤ m := by exact_mod_cast h.pos
    rw [signValue_positive, one_mul]
    calc (10 : ℚ) ^ (-1074 : ℤ) ≤ 2 ^ (-1074 : ℤ) := by
          rw [zpow_neg, zpow_neg]
          exact inv_anti₀ (by positivity)
            (zpow_le_zpow_left₀ (by norm_num) (by norm_num) (by norm_num))
      _ ≤ 2 ^ e := zpow_le_zpow_right₀ one_le_two h.least
      _ ≤ m * 2 ^ e := le_mul_of_one_le_left (by positivity) hone

theorem decade_bounds {x : Float} (hx : x.isFinite) (hpos : 0 < exact x) {k : ℤ}
    (hlow : 10 ^ k ≤ exact x) (hhigh : exact x < 10 ^ (k + 1)) : -1074 ≤ k ∧ k ≤ 384 := by
  constructor
  · have hlt := (zpow_lt_zpow_iff_right₀ (by norm_num)).mp ((zpow_le_exact hx hpos).trans_lt hhigh)
    omega
  · by_contra hlt
    have hlarge : (1000 : ℚ) ^ 128 ≤ 256 ^ 128 := by
      calc (1000 : ℚ) ^ 128 = (10 ^ (3 : ℤ)) ^ (128 : ℤ) := by norm_num
        _ = 10 ^ (384 : ℤ) := (zpow_mul 10 3 128).symm
        _ ≤ 10 ^ k := zpow_le_zpow_right₀ (by norm_num) (by omega)
        _ ≤ largest := hlow.trans ((le_abs_self _).trans (abs_exact_le_largest hx))
        _ ≤ 256 ^ 128 := largest_le
    norm_num at hlarge

theorem exists_decade {x : Float} (hx : x.isFinite) (hpos : 0 < exact x) : ∃ k : ℤ,
    10 ^ k ≤ exact x ∧ exact x < 10 ^ (k + 1) ∧ (decadeLog x).isFinite ∧
      |exact (decadeLog x) - (k + 1 / 2)| ≤ 1 / 100 := by
  obtain ⟨k, hk⟩ : ∃ k, decimalExponent (Binary64.ofFloat x).num (Binary64.ofFloat x).den = k :=
    ⟨_, rfl⟩
  have hlow := ten_zpow_decimalExponent_le (num_pos hpos.ne') (Binary64.ofFloat x).den_pos
  have hhigh := lt_ten_zpow_decimalExponent (num_pos hpos.ne') (Binary64.ofFloat x).den_pos
  rw [← abs_exact, abs_of_pos hpos, hk] at hlow hhigh
  obtain ⟨hleast, hmost⟩ := decade_bounds hx hpos hlow hhigh
  obtain ⟨hnumber, hexact⟩ := exact_ofInt (k := 2 * k + 1) (by omega)
  obtain ⟨htwo, hexactTwo⟩ := exact_literal 2 (by decide)
  have hrounds := rounds_div hnumber htwo (by rw [hexactTwo]; norm_num)
  have hlog : decadeLog x = Float.ofInt (2 * k + 1) / 2 := by rw [decadeLog, hk]
  have hmiddle : ((2 * k + 1 : ℤ) / 2 : ℚ) = k + 1 / 2 := by
    push_cast
    ring
  rw [hexact, hexactTwo, ← hlog, hmiddle] at hrounds
  have hsize : |(k + 1 / 2 : ℚ)| ≤ 2 ^ (11 : ℤ) := by
    have hleast' : (-1074 : ℚ) ≤ k := by exact_mod_cast hleast
    have hmost' : (k : ℚ) ≤ 384 := by exact_mod_cast hmost
    rw [abs_le]
    constructor <;> linarith
  have hfinite := hrounds.isFinite (hsize.trans (zpow_le_largest (by norm_num)))
  refine ⟨k, hlow, hhigh, hfinite, (hrounds.abs_sub_le hfinite).trans ?_⟩
  norm_num at hsize ⊢
  linarith

theorem isDecimalLog_decadeLog : IsDecimalLog decadeLog := by
  refine ⟨fun hx hpos => ?_, fun hx hpos => ?_⟩
  · obtain ⟨-, -, -, hfinite, -⟩ := exists_decade hx hpos
    exact hfinite
  · obtain ⟨k, hlow, hhigh, -, hnear⟩ := exists_decade hx hpos
    have hlogLow := le_logb hlow
    have hlogHigh := logb_lt hpos hhigh
    have hcast := (Rat.cast_le (K := ℝ)).mpr hnear
    push_cast at hcast hlogHigh
    rw [abs_le] at hcast ⊢
    constructor <;> linarith

theorem isSome_read?_number_thousands :
    let f : CellFormat := { floatStyle := some (.engineering 2) }
    f.numberBy .limited decadeLog {} 3162.2776601683795 = some "3.16e3".toList ∧
      (read? "3.16e3".toList).isSome ∧
      CellFormat.numberBy .limited decadeLog { precision := some 70000 } {} 0.1 = none := by
  intro f
  have hfinite : (3162.2776601683795 : Float).isFinite := by decide +kernel
  have hexponent : engineeringExponent decadeLog 3162.2776601683795 = 3 := by decide +kernel
  have hfractions : none.getD ({} : FormatDefaults).preferFraction = false := rfl
  have htext : f.numberBy .limited decadeLog {} 3162.2776601683795 = some "3.16e3".toList := by
    decide +kernel
  have hiff := (isSome_read?_number_iff isDecimalLog_decadeLog hfinite (f := f) rfl hfractions
    (by rintro digits ⟨⟩; decide)).2.1 _ htext
  refine ⟨htext, hiff.mpr fun h => ?_, by decide +kernel⟩
  rw [hexponent] at h
  omega

/-- The smallest double, with its logarithm. -/
theorem read?_number_smallest :
    let f : CellFormat := { floatStyle := some (.engineering 2) }
    f.numberBy .limited (fun _ => -323.3062153431158) {} 5e-324 = some "infe-321".toList ∧
      read? "infe-321".toList = none := by
  exact ⟨by decide +kernel, by decide +kernel⟩

end CellFormat

end Rollup
