import Rollup.Number.Rounding
import Rollup.Proofs.Double.Decimal

/-! # The shortest text reads back

The shortest decimal of a double lies in its interval of rounding, for which seventeen digits are
enough. So its text reads as the same double.
-/

namespace Rollup.Number

open Float.Model
open Float.Model.UnpackedFloat (Sign)

/-! ## Doubles as fractions -/

def isMinus : Sign → Bool
  | .positive => false
  | .negative => true

theorem ofFloat_packComponents (s : Sign) (e : BitVec 11) (m : BitVec 52) {x : Float}
    (hx : x.toBits.toBitVec = UnpackedFloat.packComponents Format.binary64 s e m) :
    Binary64.ofFloat x = if e.toNat = 0 then ⟨isMinus s, m.toNat, -1074⟩
      else ⟨isMinus s, 2 ^ 52 + m.toNat, e.toNat - 1075⟩ := by
  have he := e.isLt
  have hm := m.isLt
  have hs : s.toBitVec.toNat = (isMinus s).toNat := by cases s <;> rfl
  have hbits : x.toBits.toNat = _ := (congrArg BitVec.toNat hx).trans (toNat_packComponents s e m)
  rw [hs] at hbits
  have hfraction : x.toBits.toNat % 2 ^ 52 = m.toNat := by omega
  have hfield : x.toBits.toNat / 2 ^ 52 % 2 ^ 11 = e.toNat := by
    cases hsign : isMinus s <;> rw [hsign] at hbits <;>
      simp only [Bool.toNat_true, Bool.toNat_false] at hbits <;> omega
  have hsign : decide (2 ^ 63 ≤ x.toBits.toNat) = isMinus s := by
    cases hsign : isMinus s <;> rw [hsign] at hbits <;>
      simp only [Bool.toNat_true, Bool.toNat_false] at hbits <;> simp <;> omega
  unfold Binary64.ofFloat
  simp only [Nat.pow_eq, hfraction, hfield, hsign, add_comm m.toNat]

theorem ofFloat_finite {s : Sign} {m : ℕ} {e : ℤ} (h : Canonical m e) :
    Binary64.ofFloat (assemble (.finite s m e h.pos)) = ⟨isMinus s, m, e⟩ := by
  rcases h.fields with ⟨E, M, h0, h1, rfl, rfl⟩ | ⟨M, hM, rfl, rfl⟩
  · exact (ofFloat_packComponents s E M (x := assemble (.finite s _ _ h.pos))
      (pack_normal h1)).trans (if_neg (toNat_exponent_pos h0).ne')
  · exact ofFloat_packComponents s 0#11 M (x := assemble (.finite s _ _ h.pos))
      (pack_subnormal hM)

theorem ofFloat_zero (s : Sign) :
    Binary64.ofFloat (assemble (.zero s)) = ⟨isMinus s, 0, -1074⟩ := by
  cases s <;> decide

theorem num_div_den (b : Binary64) : (b.num / b.den : ℚ) = b.mantissa * 2 ^ b.exponent := by
  rw [zpow_eq_div 2 b.exponent, Binary64.num, Binary64.den]
  simp only [Nat.pow_eq]
  push_cast
  exact mul_div_assoc _ _ _

/-! ## Decimal exponents -/

theorem ten_zpow_decimalExponent_le {num den : ℕ} (hnum : 0 < num) (hden : 0 < den) :
    (10 : ℚ) ^ decimalExponent num den ≤ num / den := by
  have hnum' : (0 : ℚ) < num := by exact_mod_cast hnum
  have hden' : (0 : ℚ) < den := by exact_mod_cast hden
  unfold decimalExponent
  split
  case isTrue h =>
    have hq : 0 < num / den := Nat.div_pos h hden
    have hlen : 0 < (Text.ofNat (num / den)).length := Nat.length_toDigits_pos
    have hpow : (10 : ℚ) ^ ((Text.ofNat (num / den)).length - 1) ≤ (num / den : ℕ) := by
      exact_mod_cast ten_pow_length_le hq
    rw [← Nat.cast_pred hlen, zpow_natCast]
    exact hpow.trans Nat.cast_div_le
  case isFalse h =>
    have hlt := lt_ten_pow_length ((den + num - 1) / num - 1)
    generalize (Text.ofNat ((den + num - 1) / num - 1)).length = len at hlt ⊢
    have hceil : den ≤ (den + num - 1) / num * num := by
      have := Nat.div_add_mod (den + num - 1) num
      have := Nat.mod_lt (den + num - 1) hnum
      rw [Nat.mul_comm]
      omega
    have hle : den ≤ 10 ^ len * num := hceil.trans (Nat.mul_le_mul_right _ (by omega))
    have hle' : (den : ℚ) ≤ 10 ^ len * num := by exact_mod_cast hle
    rw [zpow_neg, zpow_natCast, le_div_iff₀ hden', inv_mul_le_iff₀ (by positivity)]
    exact hle'

theorem lt_ten_zpow_decimalExponent {num den : ℕ} (hnum : 0 < num) (hden : 0 < den) :
    (num / den : ℚ) < 10 ^ (decimalExponent num den + 1) := by
  have hnum' : (0 : ℚ) < num := by exact_mod_cast hnum
  have hden' : (0 : ℚ) < den := by exact_mod_cast hden
  unfold decimalExponent
  split
  case isTrue h =>
    have hlt : ((num / den : ℕ) : ℚ) + 1 ≤ 10 ^ (Text.ofNat (num / den)).length := by
      exact_mod_cast lt_ten_pow_length (num / den)
    rw [sub_add_cancel, zpow_natCast]
    exact (locates_div num hden).lt.trans_le hlt
  case isFalse h =>
    obtain ⟨c, hc⟩ : ∃ c, (den + num - 1) / num - 1 = c := ⟨_, rfl⟩
    have hceil : den + num - 1 = num * ((den + num - 1) / num) + (den + num - 1) % num :=
      (Nat.div_add_mod _ _).symm
    have htwo : 2 ≤ (den + num - 1) / num := (Nat.le_div_iff_mul_le hnum).mpr (by omega)
    have hlt : c * num < den := by
      have hmul : num * ((den + num - 1) / num) = c * num + num := by
        rw [show (den + num - 1) / num = c + 1 by omega]
        ring
      omega
    have hpow : 10 ^ ((Text.ofNat c).length - 1) ≤ c := ten_pow_length_le (by omega)
    have hlen : 0 < (Text.ofNat c).length := Nat.length_toDigits_pos
    have hle : (10 : ℚ) ^ ((Text.ofNat c).length - 1) * num < den := by
      exact_mod_cast lt_of_le_of_lt (Nat.mul_le_mul_right num hpow) hlt
    rw [hc, show -((Text.ofNat c).length : ℤ) + 1 = -((Text.ofNat c).length - 1 : ℕ) by omega,
      zpow_neg, zpow_natCast, ← one_div, div_lt_div_iff₀ hden' (by positivity), one_mul, mul_comm]
    exact hle

/-! ## Decimals that read back -/

/-- The number that scientific notation denotes. -/
def Scientific.value (s : Scientific) : ℚ := s.digits * 10 ^ (s.exponent - s.places)

theorem nearestWith?_holds {b : Binary64} {n : ℕ} {s : Scientific}
    (h : nearestWith? b (n + 1) = some s) : (Interval.of b).Holds s.value := by
  unfold nearestWith? at h
  dsimp only at h
  obtain ⟨digits, hpick, rfl⟩ := Option.map_eq_some_iff.mp h
  have hmem : (Interval.of b).mem digits (decimalExponent b.num b.den - (n + 1 - 1 : ℕ)) := by
    split at hpick <;> cases hpick
    · split <;> assumption
    · assumption
    · assumption
  rw [Interval.mem_iff] at hmem
  split
  case isTrue hten =>
    convert hmem using 1
    rw [hten, Scientific.value]
    simp only [Nat.pow_eq, Nat.add_sub_cancel]
    push_cast
    rw [← zpow_natCast, ← zpow_natCast, ← zpow_add₀ (by norm_num), ← zpow_add₀ (by norm_num)]
    congr 1
    push_cast
    ring
  case isFalse => exact hmem

theorem Interval.le_low_of_not_holds {i : Interval} {v : ℚ} (h : ¬ i.Holds v)
    (hv : v < i.high * 2 ^ i.unit) : v ≤ i.low * 2 ^ i.unit := by
  unfold Interval.Holds at h
  split at h
  · exact (lt_of_not_ge fun hlow => h ⟨hlow, hv.le⟩).le
  · exact le_of_not_gt fun hlow => h ⟨hlow, hv⟩

theorem Interval.high_le_of_not_holds {i : Interval} {v : ℚ} (h : ¬ i.Holds v)
    (hv : i.low * 2 ^ i.unit < v) : i.high * 2 ^ i.unit ≤ v := by
  unfold Interval.Holds at h
  split at h
  · exact (lt_of_not_ge fun hhigh => h ⟨hv.le, hhigh⟩).le
  · exact le_of_not_gt fun hhigh => h ⟨hv, hhigh⟩

/-- Decimals of seventeen digits lie closer together than the ends of an interval. -/
theorem ten_zpow_lt_width {b : Binary64} (hb : Canonical b.mantissa b.exponent) {k : ℤ}
    (hk : (10 : ℚ) ^ (k + 16) ≤ b.mantissa * 2 ^ b.exponent) :
    (10 : ℚ) ^ k < (1 / 2 + below b) * 2 ^ b.exponent := by
  have hE : (0 : ℚ) < 2 ^ b.exponent := by positivity
  have hM : (b.mantissa : ℚ) < 10 ^ 16 * (1 / 2 + below b) := by
    unfold below
    split_ifs with h
    · rw [h.1]
      norm_num
    · have hsmall : (b.mantissa : ℚ) < 2 ^ 53 := by exact_mod_cast hb.small
      norm_num at hsmall ⊢
      linarith
  have hlt : (10 : ℚ) ^ 16 * 10 ^ k < 10 ^ 16 * ((1 / 2 + below b) * 2 ^ b.exponent) := by
    calc (10 : ℚ) ^ 16 * 10 ^ k = 10 ^ (k + 16) := by
          rw [zpow_add₀ (by norm_num), zpow_ofNat, mul_comm]
      _ ≤ b.mantissa * 2 ^ b.exponent := hk
      _ < 10 ^ 16 * (1 / 2 + below b) * 2 ^ b.exponent := mul_lt_mul_of_pos_right hM hE
      _ = _ := mul_assoc _ _ _
  exact lt_of_mul_lt_mul_left hlt (by positivity)

theorem shiftDecimal_div (num den : ℕ) (k : ℤ) :
    ((shiftDecimal num den k).1 / (shiftDecimal num den k).2 : ℚ) = num / den * 10 ^ k := by
  rw [zpow_eq_div 10 k, shiftDecimal]
  simp only [Nat.pow_eq]
  push_cast
  exact mul_div_mul_comm _ _ _ _

/-- Of the two decimals of seventeen digits around a double, at least one lies in its interval. -/
theorem holds_down_or_up {b : Binary64} (hb : Canonical b.mantissa b.exponent) {k : ℤ} {down : ℕ}
    (hdown : down * 10 ^ k ≤ (b.mantissa * 2 ^ b.exponent : ℚ))
    (hup : (b.mantissa * 2 ^ b.exponent : ℚ) < (down + 1) * 10 ^ k)
    (hk : (10 : ℚ) ^ (k + 16) ≤ b.mantissa * 2 ^ b.exponent) :
    (Interval.of b).Holds (down * 10 ^ k) ∨ (Interval.of b).Holds ((down + 1) * 10 ^ k) := by
  by_contra h
  obtain ⟨hnotDown, hnotUp⟩ := not_or.mp h
  have hE : (0 : ℚ) < 2 ^ b.exponent := by positivity
  have hself := holds_self hb.pos
  have hhigh : (b.mantissa * 2 ^ b.exponent : ℚ) < (b.mantissa + 1 / 2) * 2 ^ b.exponent :=
    mul_lt_mul_of_pos_right (by linarith) hE
  have h1 := Interval.le_low_of_not_holds hnotDown
    (by rw [high_eq]; exact hdown.trans_lt hhigh)
  have h2 := Interval.high_le_of_not_holds hnotUp (hself.le.1.trans_lt hup)
  rw [low_eq b hb.pos] at h1
  rw [high_eq] at h2
  have hwidth := ten_zpow_lt_width hb hk
  linarith

theorem nearestWith?_isSome {b : Binary64} (hb : Canonical b.mantissa b.exponent) :
    (nearestWith? b 17).isSome := by
  have hnum : 0 < b.num := Nat.mul_pos hb.pos (by simp only [Nat.pow_eq]; positivity)
  have hexp := ten_zpow_decimalExponent_le hnum b.den_pos
  unfold nearestWith?
  dsimp only
  rw [Option.isSome_map]
  obtain ⟨k, hk⟩ : ∃ k, decimalExponent b.num b.den - (17 - 1 : ℕ) = k := ⟨_, rfl⟩
  have hshift := shiftDecimal_div b.num b.den (-k)
  have hden : 0 < (shiftDecimal b.num b.den (-k)).2 :=
    Nat.mul_pos b.den_pos (by simp only [Nat.pow_eq]; positivity)
  rw [hk]
  have hloc := locates_div (shiftDecimal b.num b.den (-k)).1 hden
  have hten : (0 : ℚ) < 10 ^ k := by positivity
  rw [hshift, num_div_den, zpow_neg, ← div_eq_mul_inv] at hloc
  rw [num_div_den, show decimalExponent b.num b.den = k + 16 by omega] at hexp
  have h := holds_down_or_up hb ((le_div_iff₀ hten).mp hloc.le) ((div_lt_iff₀ hten).mp hloc.lt) hexp
  rw [← Nat.cast_succ, ← Interval.mem_iff, ← Interval.mem_iff] at h
  split <;> simp_all

theorem shortestDigits_holds {b : Binary64} (hb : Canonical b.mantissa b.exponent) :
    (Interval.of b).Holds (shortestDigits b).value := by
  have hzero : b.isZero = false := decide_eq_false hb.pos.ne'
  have hsome : ((List.range 17).findSome? fun n => nearestWith? b (n + 1)).isSome := by
    rw [List.findSome?_isSome_iff]
    exact ⟨16, by simp, nearestWith?_isSome hb⟩
  obtain ⟨s, hs⟩ := Option.isSome_iff_exists.mp hsome
  obtain ⟨n, -, hn⟩ := List.exists_of_findSome?_eq_some hs
  rw [shortestDigits, hzero, if_neg Bool.false_ne_true, hs]
  exact nearestWith?_holds hn

/-! ## The digits of the text -/

/-- A fraction behind its point, and nothing when there is no fraction. -/
def pointed (fraction : Text) : Text := if fraction = [] then [] else '.' :: fraction

/-- A decimal without an exponent: digits, and perhaps a point and more digits. -/
structure IsDecimal (whole fraction : Text) : Prop where
  wholeNe : whole ≠ []
  wholeDigits : ∀ c ∈ whole, c.isDigit
  fractionDigits : ∀ c ∈ fraction, c.isDigit

theorem isDigit_of_mem_ofNat {n : ℕ} {c : Char} (h : c ∈ Text.ofNat n) : c.isDigit :=
  Nat.isDigit_of_mem_toDigits (by decide) (by decide) h

theorem toNatBelow?_ofNat (bound n : ℕ) :
    Text.toNatBelow? bound (Text.ofNat n) = if n < bound then some n else none := by
  have hdigits : Text.digitsToNat (Text.ofNat n) = n := Nat.ofDigitChars_ten_toDigits
  have hne : Text.ofNat n ≠ [] := Nat.toDigits_ne_nil
  have hall : (Text.ofNat n).all Char.isDigit := List.all_eq_true.mpr fun _ =>
    isDigit_of_mem_ofNat
  simp [Text.toNatBelow?, hdigits, hne, hall]

theorem isDigit_of_mem_ofNatPadded {width n : ℕ} {c : Char} (h : c ∈ Text.ofNatPadded width n) :
    c.isDigit := by
  rcases List.mem_append.mp h with h | h
  · rw [List.eq_of_mem_replicate h]
    rfl
  · exact isDigit_of_mem_ofNat h

theorem digitsToNat_ofNatPadded (width n : ℕ) :
    Text.digitsToNat (Text.ofNatPadded width n) = n := by
  rw [Text.digitsToNat, Text.ofNatPadded, Nat.ofDigitChars_append, Nat.ofDigitChars_replicate_zero,
    mul_zero]
  exact Nat.ofDigitChars_ten_toDigits

/-- The digits are parted by the point, with as many after it as asked for. -/
theorem exists_withPoint (places n : ℕ) : ∃ whole fraction,
    withPoint places n = whole ++ pointed fraction ∧ IsDecimal whole fraction ∧
      fraction.length = places ∧ Text.digitsToNat (whole ++ fraction) = n := by
  obtain ⟨ds, hds⟩ : ∃ ds, Text.ofNatPadded (places + 1) n = ds := ⟨_, rfl⟩
  have hlen : places + 1 ≤ ds.length := by
    rw [← hds, Text.ofNatPadded, List.length_append, List.length_replicate]
    omega
  have hdigit : ∀ c ∈ ds, c.isDigit := fun c h => isDigit_of_mem_ofNatPadded (hds ▸ h)
  have hdrop : (ds.drop (ds.length - places)).length = places := by
    rw [List.length_drop]
    omega
  refine ⟨ds.take (ds.length - places), ds.drop (ds.length - places), ?_,
    ⟨?_, fun c h => hdigit c (List.mem_of_mem_take h), fun c h => hdigit c (List.mem_of_mem_drop h)⟩,
    hdrop, ?_⟩
  · rw [withPoint, hds, pointed]
    dsimp only
    by_cases hplaces : places = 0
    · simp [hplaces]
    · rw [if_neg hplaces, if_neg]
      rw [← List.length_eq_zero_iff, hdrop]
      exact hplaces
  · rw [← List.length_pos_iff, List.length_take]
    omega
  · rw [List.take_append_drop, ← hds, digitsToNat_ofNatPadded]

theorem exists_positional (s : Scientific) : ∃ whole fraction,
    s.positional = whole ++ pointed fraction ∧ IsDecimal whole fraction ∧
      Text.digitsToNat (whole ++ fraction) * (10 : ℚ) ^ (-(fraction.length : ℤ)) = s.value := by
  unfold Scientific.positional Scientific.value
  dsimp only
  split
  case isTrue hk =>
    refine ⟨_, [], (List.append_nil _).symm,
      ⟨Nat.toDigits_ne_nil, fun c => isDigit_of_mem_ofNat, by simp⟩, ?_⟩
    have hdigits : ∀ n, Text.digitsToNat (Text.ofNat n) = n := fun _ =>
      Nat.ofDigitChars_ten_toDigits
    rw [List.append_nil, hdigits, List.length_nil, Nat.cast_zero, neg_zero, zpow_zero, mul_one,
      Nat.pow_eq, Nat.cast_mul, Nat.cast_pow, Nat.cast_ofNat, ← zpow_natCast,
      Int.toNat_of_nonneg hk]
  case isFalse hk =>
    obtain ⟨places, hplaces⟩ : ∃ places, (-(s.exponent - s.places)).toNat = places := ⟨_, rfl⟩
    obtain ⟨whole, fraction, htext, hdecimal, hlength, hdigits⟩ := exists_withPoint places s.digits
    refine ⟨whole, fraction, hplaces ▸ htext, hdecimal, ?_⟩
    rw [hdigits, hlength]
    congr 2
    omega

/-! ## Reading the text -/

section Reading

variable {whole fraction : Text} (hdecimal : IsDecimal whole fraction)

include hdecimal

theorem value?_of_zero
    (h : Text.digitsToNat (whole ++ fraction) * (10 : ℚ) ^ (-(fraction.length : ℤ)) = 0) :
    Numeral.value? ⟨whole, fraction, 0⟩ = some (assemble (.zero .positive)) := by
  have hten : (10 : ℚ) ^ (-(fraction.length : ℤ)) ≠ 0 := by positivity
  have hzero : Text.digitsToNat (whole ++ fraction) = 0 := by
    exact_mod_cast (mul_eq_zero.mp h).resolve_right hten
  rw [Numeral.value?, if_neg fun h => hdecimal.wholeNe h.1, ofDecimal, hzero]
  exact congrArg some (if_pos (.inl rfl))

theorem value?_of_holds {b : Binary64} (hb : Canonical b.mantissa b.exponent)
    (hin : (Interval.of b).Holds
      (Text.digitsToNat (whole ++ fraction) * 10 ^ (-(fraction.length : ℤ)))) :
    Numeral.value? ⟨whole, fraction, 0⟩ =
      some (assemble (.finite .positive b.mantissa b.exponent hb.pos)) := by
  have hdigits : 0 < Text.digitsToNat (whole ++ fraction) := by
    rw [Nat.pos_iff_ne_zero]
    intro hzero
    have hle := le_of_holds hb hin
    rw [hzero, Nat.cast_zero, zero_mul] at hle
    exact absurd hle (not_le.mpr (by positivity))
  rw [Numeral.value?, if_neg fun h => hdecimal.wholeNe h.1, zero_sub]
  exact congrArg some (ofDecimal_eq hb hdigits hin)

end Reading

/-- A finite double without its sign reads back from its shortest text without the sign. -/
theorem exists_shortest {x : Float} (hx : x.isFinite) : ∃ whole fraction y,
    shortest x = signText (isNegative x) ++ (whole ++ pointed fraction) ∧
      IsDecimal whole fraction ∧ Numeral.value? ⟨whole, fraction, 0⟩ = some y ∧
      x = if isNegative x then -y else y := by
  obtain ⟨f, hf, rfl⟩ := exists_proper x
  have hfinite : (view (assemble f)).isFinite := hx
  rw [view_assemble_of_proper hf] at hfinite
  -- The text is that of the digits, and their value lies in the interval of the double.
  obtain ⟨whole, fraction, htext, hdecimal, hvalue⟩ :=
    exists_positional (shortestDigits (Binary64.ofFloat (assemble f)))
  have hshortest : shortest (assemble f) =
      signText (isNegative (assemble f)) ++ (whole ++ pointed fraction) := by
    rw [shortest, if_pos hx, ← htext, isNegative]
  cases f with
  | infinity s => cases hfinite
  | notANumber => cases hfinite
  | zero s =>
    refine ⟨whole, fraction, _, hshortest, hdecimal, value?_of_zero hdecimal ?_, ?_⟩
    · rw [hvalue, ofFloat_zero]
      simp [shortestDigits, Binary64.isZero, Scientific.value]
    · rw [isNegative, ofFloat_zero]
      cases s <;> rfl
  | finite s m e h =>
    have hcan : Canonical m e := hf
    have hpos : Proper (.finite .positive m e h) := hcan
    rw [ofFloat_finite hcan] at hvalue
    have hin := shortestDigits_holds (b := ⟨isMinus s, m, e⟩) hcan
    rw [← hvalue] at hin
    refine ⟨whole, fraction, _, hshortest, hdecimal, value?_of_holds hdecimal hcan hin, ?_⟩
    rw [isNegative, ofFloat_finite hcan, neg_eq, view_assemble_of_proper hpos]
    cases s <;> rfl

end Rollup.Number
