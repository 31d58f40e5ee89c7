import Mathlib.Data.List.DropRight
import Rollup.Proofs.Double.Shortest
import Rollup.Proofs.Number.Numeral

/-! # The numbers that decimal texts denote

A numeral denotes a rational number, whether or not a double is equal to it. Leaving out zeros at the
end of its fraction does not change that number.
-/

namespace Rollup

/-- The number that a numeral denotes. -/
def Numeral.amount (n : Numeral) : ℚ :=
  Text.digitsToNat (n.whole ++ n.fraction) * 10 ^ (n.exponent - n.fraction.length)

/-- The text is a numeral for `q`. Neither a zero nor the point ends its digits after the point. -/
inductive Numeral.Denotes : Text → ℚ → Prop
  | parts {whole fraction power : Text} {exponent : ℤ} (hdecimal : Number.IsDecimal whole fraction)
      (htrimmed : fraction.getLast? ≠ some '0') (hpower : IsExponent power exponent) :
      Denotes (whole ++ (Number.pointed fraction ++ power)) (amount ⟨whole, fraction, exponent⟩)

/-- The text is a numeral for `q`, with a minus sign in front where it is to have one. -/
inductive Number.Denotes : Text → ℚ → Prop
  | signed (negative : Bool) {t : Text} {q : ℚ} (h : Numeral.Denotes t q) :
      Denotes (signText negative ++ t) ((if negative then -1 else 1) * q)

namespace Number

theorem IsDecimal.writtenAs {whole fraction power : Text} {exponent : ℤ}
    (h : IsDecimal whole fraction) (hpower : Numeral.IsExponent power exponent) :
    Numeral.WrittenAs ⟨whole, fraction, exponent⟩ (whole ++ (pointed fraction ++ power)) := by
  refine .parts h.wholeDigits ?_ hpower
  unfold pointed
  split
  case isTrue hnil =>
    subst hnil
    exact .none
  case isFalse => exact .point h.fractionDigits

/-! ## Zeros at the end -/

theorem rdropWhile_of_getLast? {p : Char → Bool} {t : Text} (h : ∀ c ∈ t.getLast?, p c = false) :
    t.rdropWhile p = t := by
  rw [List.rdropWhile_eq_self_iff]
  intro hne
  simp [h _ (List.getLast?_eq_getLast_of_ne_nil hne)]

theorem rdropWhile_append_replicate {p : Char → Bool} {c : Char} (hc : p c) (t : Text) (n : ℕ) :
    (t ++ List.replicate n c).rdropWhile p = t.rdropWhile p := by
  induction n with
  | zero => simp
  | succ n ih =>
    rw [List.replicate_succ', ← List.append_assoc, List.rdropWhile_concat_pos _ _ _ hc, ih]

theorem contains_iff {c : Char} {t : Text} : Text.contains c t ↔ c ∈ t := by simp [Text.contains]

theorem trimZeros_eq (t : Text) : trimZeros t =
    if Text.contains '.' t then (t.rdropWhile (· == '0')).rdropWhile (· == '.') else t := by
  simp [trimZeros, List.rdropWhile]

theorem IsDecimal.ne_point {whole fraction : Text} (h : IsDecimal whole fraction) :
    (∀ c ∈ whole, c ≠ '.') ∧ ∀ c ∈ fraction, c ≠ '.' := by
  have hpoint : ∀ c : Char, c.isDigit → c ≠ '.' := by
    rintro c hc rfl
    cases hc
  exact ⟨fun c hc => hpoint c (h.wholeDigits c hc), fun c hc => hpoint c (h.fractionDigits c hc)⟩

/-- Zeros at the end of the fraction are left out, and no other digits. -/
theorem exists_trimZeros {s whole fraction : Text} (hs : '.' ∉ s) (h : IsDecimal whole fraction) :
    ∃ rest zeros, fraction = rest ++ List.replicate zeros '0' ∧ rest.getLast? ≠ some '0' ∧
      trimZeros (s ++ (whole ++ pointed fraction)) = s ++ (whole ++ pointed rest) := by
  obtain ⟨hwhole, hfraction⟩ := h.ne_point
  by_cases hnil : fraction = []
  · subst hnil
    have hcontains : Text.contains '.' (s ++ (whole ++ pointed [])) = false := by
      rw [← Bool.not_eq_true, contains_iff]
      simpa [pointed, hs] using fun hmem => hwhole _ hmem rfl
    exact ⟨[], 0, rfl, by simp, by rw [trimZeros_eq, hcontains, if_neg Bool.false_ne_true]⟩
  · have hzeros : fraction.rtakeWhile (· == '0') =
        List.replicate (fraction.rtakeWhile (· == '0')).length '0' :=
      List.eq_replicate_of_mem fun c hc => by simpa using List.mem_rtakeWhile_imp hc
    have hsplit := (List.rdropWhile_append_rtakeWhile (p := (· == '0')) (l := fraction)).symm
    rw [hzeros] at hsplit
    have hlast : (fraction.rdropWhile (· == '0')).getLast? ≠ some '0' := by
      intro hlast
      have hne : fraction.rdropWhile (· == '0') ≠ [] := by
        rintro hnone
        simp [hnone] at hlast
      rw [List.getLast?_eq_some_getLast hne] at hlast
      exact List.rdropWhile_last_not _ _ hne (by simpa using hlast)
    generalize fraction.rdropWhile (· == '0') = rest at hsplit hlast
    generalize (fraction.rtakeWhile (· == '0')).length = zeros at hsplit
    subst hsplit
    refine ⟨rest, zeros, rfl, hlast, ?_⟩
    have hcontains : Text.contains '.'
        (s ++ (whole ++ pointed (rest ++ List.replicate zeros '0'))) = true := by
      rw [contains_iff, pointed, if_neg hnil]
      simp
    rw [trimZeros_eq, hcontains, if_pos rfl, pointed, if_neg hnil, ← List.cons_append,
      ← List.append_assoc, ← List.append_assoc, rdropWhile_append_replicate rfl]
    -- Without digits after the point the point goes as well.
    rcases List.eq_nil_or_concat' rest with rfl | ⟨u, c, rfl⟩
    · obtain ⟨v, d, rfl⟩ := (List.eq_nil_or_concat' whole).resolve_left h.wholeNe
      have hd : d ≠ '.' := hwhole d (by simp)
      rw [pointed, if_pos rfl, List.rdropWhile_concat_neg _ _ _ (by decide),
        List.rdropWhile_concat_pos _ _ _ (by rfl), rdropWhile_of_getLast? (by simpa using hd)]
      simp
    · have hzero : c ≠ '0' := by simpa using hlast
      have hpoint : c ≠ '.' := hfraction c (by simp)
      rw [← List.cons_append, ← List.append_assoc, List.rdropWhile_concat_neg _ _ _ (by simpa),
        List.rdropWhile_concat_neg _ _ _ (by simpa), pointed, if_neg (by simp)]
      simp

theorem digitsToNat_append_replicate (t : Text) (n : ℕ) :
    Text.digitsToNat (t ++ List.replicate n '0') = 10 ^ n * Text.digitsToNat t := by
  rw [Text.digitsToNat, Nat.ofDigitChars_append, Nat.ofDigitChars_replicate_zero, Text.digitsToNat]

/-- Without its zeros at the end a text of `n` units denotes the same number. -/
theorem exists_denotes_trimZeros (negative : Bool) (places n : ℕ) {power : Text} {exponent : ℤ}
    (hpower : Numeral.IsExponent power exponent) : ∃ t,
    trimZeros (signText negative ++ withPoint places n) ++ power = signText negative ++ t ∧
      Numeral.Denotes t (n * 10 ^ (exponent - places)) := by
  have hsign : '.' ∉ signText negative := by cases negative <;> simp [signText]
  obtain ⟨whole, fraction, htext, hdecimal, hlength, hdigits⟩ := exists_withPoint places n
  obtain ⟨rest, zeros, rfl, hlast, htrim⟩ := exists_trimZeros hsign hdecimal
  have hrest : IsDecimal whole rest :=
    ⟨hdecimal.wholeNe, hdecimal.wholeDigits, fun c hc =>
      hdecimal.fractionDigits c (List.mem_append_left _ hc)⟩
  refine ⟨whole ++ (pointed rest ++ power), by rw [htext, htrim]; simp, ?_⟩
  have hamount : Numeral.amount ⟨whole, rest, exponent⟩ = n * 10 ^ (exponent - places) := by
    rw [← hdigits, ← hlength, ← List.append_assoc, digitsToNat_append_replicate, List.length_append,
      List.length_replicate, Numeral.amount]
    push_cast
    rw [mul_comm ((10 : ℚ) ^ zeros), mul_assoc, ← zpow_natCast, ← zpow_add₀ (by norm_num)]
    congr 2
    omega
  rw [← hamount]
  exact .parts hrest hlast hpower

end Number

end Rollup
