import Rollup.Proofs.Double.Value
import Rollup.Proofs.Format.Limits
import Rollup.Proofs.Number.Significant

/-! # Significant digits of a format

The default style and the conversions of kind `g` choose between fixed and scientific notation, each
by its own bounds. Both write the exact number, rounded to significant digits.
-/

namespace Rollup

namespace Number

theorem isExponent_ofInt (k : ℤ) : Numeral.IsExponent ('e' :: Text.ofInt k) k := by
  have hdigits : ∀ n, Text.digitsToNat (Text.ofNat n) = n := fun _ => Nat.ofDigitChars_ten_toDigits
  have hne : ∀ n, Text.ofNat n ≠ [] := fun _ => Nat.toDigits_ne_nil
  cases k with
  | ofNat n =>
    have h : Numeral.IsExponent ('e' :: ([] ++ Text.ofNat n)) (1 * Text.digitsToNat (Text.ofNat n)) :=
      .power (.inl rfl) (by simp [Numeral.exponentSigns]) (hne n) fun _ => isDigit_of_mem_ofNat
    rw [hdigits, one_mul] at h
    exact h
  | negSucc n =>
    have h : Numeral.IsExponent ('e' :: (['-'] ++ Text.ofNat (n + 1)))
        (-1 * Text.digitsToNat (Text.ofNat (n + 1))) :=
      .power (.inl rfl) (by simp [Numeral.exponentSigns]) (hne _) fun _ => isDigit_of_mem_ofNat
    rw [hdigits, neg_one_mul] at h
    exact h

/-! ## Notations of a double -/

section Notations

variable {x : Float} (hx : x.isFinite)

theorem exact_eq_sign_mul (x : Float) :
    exact x = (if (Binary64.ofFloat x).negative then -1 else 1) * |exact x| := by
  rw [abs_exact, num_div_den]
  rfl

theorem num_pos (h : exact x ≠ 0) : 0 < (Binary64.ofFloat x).num := by
  rw [Nat.pos_iff_ne_zero]
  intro hnum
  have habs := abs_exact x
  rw [hnum, Nat.cast_zero, zero_div, abs_eq_zero] at habs
  exact h habs

/-- The digits that scientific notation has for a double. -/
def digitsOf (places : ℕ) (x : Float) : Scientific :=
  Scientific.round places (Binary64.ofFloat x).num (Binary64.ofFloat x).den

theorem places_digitsOf (places : ℕ) (x : Float) : (digitsOf places x).places = places := by
  unfold digitsOf Scientific.round
  split
  · rfl
  · dsimp only
    split <;> rfl

include hx

theorem scientificParts_eq (places : ℕ) : scientificParts places x =
    (signText (Binary64.ofFloat x).negative ++ withPoint places (digitsOf places x).digits,
      (digitsOf places x).exponent) := by
  rw [scientificParts, if_pos hx]
  change (_ ++ withPoint (digitsOf places x).places (digitsOf places x).digits, _) = _
  rw [places_digitsOf]
  rfl

theorem fixed_eq (places : ℕ) : fixed places x = signText (Binary64.ofFloat x).negative ++
    withPoint places (roundDiv ((Binary64.ofFloat x).num * 10 ^ places) (Binary64.ofFloat x).den) := by
  rw [fixed, if_pos hx]
  rfl

variable (hzero : exact x ≠ 0) (places : ℕ)

include hzero

theorem snd_scientificParts :
    (scientificParts places x).2 = roundedExponent (places + 1) (exact x) := by
  rw [scientificParts_eq hx, roundedExponent, abs_exact]
  exact exponent_round (num_pos hzero) (Binary64.ofFloat x).den_pos places

theorem exists_denotes_scientific {power : Text}
    (hpower : Numeral.IsExponent power (digitsOf places x).exponent) : ∃ t,
    trimZeros (scientificParts places x).1 ++ power =
        signText (Binary64.ofFloat x).negative ++ t ∧
      Numeral.Denotes t (roundSignificant (places + 1) |exact x|) := by
  have hvalue : (digitsOf places x).value = roundSignificant (places + 1)
      ((Binary64.ofFloat x).num / (Binary64.ofFloat x).den) :=
    value_round (num_pos hzero) (Binary64.ofFloat x).den_pos places
  rw [Scientific.value, places_digitsOf, ← abs_exact] at hvalue
  rw [scientificParts_eq hx, ← hvalue]
  exact exists_denotes_trimZeros _ _ _ hpower

theorem exists_denotes_fixed (decimals : ℕ)
    (hdecimals : (decimals : ℤ) = places - (digitsOf places x).exponent) : ∃ t,
    trimZeros (fixed decimals x) = signText (Binary64.ofFloat x).negative ++ t ∧
      Numeral.Denotes t (roundSignificant (places + 1) |exact x|) := by
  have hvalue := fixed_value (num_pos hzero) (Binary64.ofFloat x).den_pos hdecimals
  rw [← abs_exact] at hvalue
  rw [fixed_eq hx, ← hvalue, ← zero_sub]
  simpa using exists_denotes_trimZeros _ decimals _ .none

end Notations

/-! ## The default style -/

theorem exact_bound : (1e15 : Float).isFinite ∧ exact 1e15 = 10 ^ 15 := by
  have hbound : (1e15 : Float) = Float.ofNat (10 ^ 15) :=
    (ofScientific_whole (by decide) (by decide) (by decide)).trans
      (ofNat_of_pos (by decide) (by decide)).symm
  have hwhole := isWholeNumber_ofNat (by decide : 10 ^ 15 < 2 ^ 53)
  rw [hbound]
  exact ⟨hwhole.isFinite, by rw [exact_ofNat (by decide)]; norm_num⟩

section General

variable {n : Float} (hn : n.isFinite)

include hn

theorem isWhole_and_abs_lt_iff :
    (isWhole n && n.abs < 1e15) ↔ ∃ k : ℤ, exact n = k ∧ |k| < 10 ^ 15 := by
  have hlt : n.abs < 1e15 ↔ |exact n| < 10 ^ 15 := by
    rw [lt_iff_exact_lt (isFinite_abs hn) exact_bound.1, exact_abs hn, exact_bound.2]
  rw [Bool.and_eq_true, decide_eq_true_iff, isWhole_iff hn, hlt]
  constructor
  · rintro ⟨⟨k, hk⟩, hsmall⟩
    rw [hk] at hsmall
    exact ⟨k, hk, by exact_mod_cast hsmall⟩
  · rintro ⟨k, hk, hsmall⟩
    exact ⟨⟨k, hk⟩, by rw [hk]; exact_mod_cast hsmall⟩

theorem general_eq_ofInt (p : ℕ) {k : ℤ} (hk : exact n = k) (hsmall : |k| < 10 ^ 15) :
    general p n = Text.ofInt k := by
  have hcondition := (isWhole_and_abs_lt_iff hn).mpr ⟨k, hk, hsmall⟩
  have htoInt : toInt n = k := by
    have h := exact_toInt ((isWhole_iff hn).mpr ⟨k, hk⟩)
    rw [hk] at h
    exact_mod_cast h.symm
  rw [general_eq, if_pos hcondition, htoInt]

theorem not_small_of_large (hlarge : ∀ k : ℤ, exact n = k → 10 ^ 15 ≤ |k|) :
    exact n ≠ 0 ∧ ¬ (isWhole n && n.abs < 1e15) := by
  constructor
  · intro h
    have := hlarge 0 (by simpa using h)
    norm_num at this
  · rw [isWhole_and_abs_lt_iff hn]
    rintro ⟨k, hk, hsmall⟩
    exact absurd (hlarge k hk) hsmall.not_ge

theorem denotes_general {p : ℕ} (hp : 1 ≤ p) (hlarge : ∀ k : ℤ, exact n = k → 10 ^ 15 ≤ |k|) :
    Denotes (general p n) (roundSignificant p (exact n)) := by
  obtain ⟨places, rfl⟩ := Nat.exists_eq_add_of_le' hp
  obtain ⟨hzero, hcondition⟩ := not_small_of_large hn hlarge
  have hsign : roundSignificant (places + 1) (exact n) =
      (if (Binary64.ofFloat n).negative then -1 else 1) * roundSignificant (places + 1) |exact n| := by
    conv_lhs => rw [exact_eq_sign_mul n]
    split_ifs <;> simp
  rw [general_eq, if_neg hcondition, scientificParts_eq hn]
  dsimp only
  rw [Nat.add_sub_cancel]
  split
  case isTrue =>
    obtain ⟨t, htext, ht⟩ := exists_denotes_scientific hn hzero places (isExponent_ofInt _)
    rw [scientificParts_eq hn] at htext
    rw [htext, hsign]
    exact .signed _ ht
  case isFalse hfixed =>
    obtain ⟨t, htext, ht⟩ := exists_denotes_fixed hn hzero places
      (places + 1 - 1 - (digitsOf places n).exponent).toNat (by omega)
    rw [Nat.cast_succ, htext, hsign]
    exact .signed _ ht

end General

/-! ## Conversions of kind `g` -/

end Number

namespace Printf

open Number

end Printf

/-! ## Formats -/

/-- The decimals that a number takes in a style can be formatted. By default these are the decimals
of `p` significant digits, and none for small whole numbers. -/
def FloatStyle.Fits (style : FloatStyle) (p : ℕ) (q : ℚ) : Prop :=
  match style with
  | .normal => (∀ k : ℤ, q = k → 10 ^ 15 ≤ |k|) → DecimalsFit (-5) p (Number.roundedExponent p q)
  | .fixed digits | .scientific digits | .engineering digits => digits ≤ Text.formatLimit

/-- Numbers are shown in the default style with `p` significant digits. -/
structure CellFormat.IsDefault (f : CellFormat) (defaults : FormatDefaults) (p : ℕ) : Prop where
  printf : f.printf = none
  fractions : f.fractions.getD defaults.preferFraction = false
  style : f.floatStyle.getD defaults.floatStyle = .normal
  precision : max (f.precision.getD defaults.precision) 1 = p

/-- A conversion of kind `g` with `p` significant digits that leaves out zeros at the end. -/
structure Printf.Conversion.IsGeneral (c : Printf.Conversion) (p : ℕ) : Prop where
  kind : ∃ upper, c.kind = .general upper
  alternate : c.flags.alternate = false
  precision : max (c.precision.getD 6) 1 = p

theorem CellFormat.fraction?_eq_none {f : CellFormat} {defaults : FormatDefaults} (n : Float)
    (h : f.fractions.getD defaults.preferFraction = false) : f.fraction? defaults n = none := by
  rw [CellFormat.fraction?, h, Bool.false_and, if_neg Bool.false_ne_true]

theorem CellFormat.numberBy_eq_styled {m : Type → Type} [Monad m] (w : Formatter m)
    (log10 : Float → Float) {f : CellFormat} {defaults : FormatDefaults} (hprintf : f.printf = none)
    (hfractions : f.fractions.getD defaults.preferFraction = false) {n : Float} (hn : n.isFinite) :
    f.numberBy w log10 defaults n = w.styled log10 (f.floatStyle.getD defaults.floatStyle)
      (max (f.precision.getD defaults.precision) 1) n := by
  rw [CellFormat.numberBy, Number.isNaN_of_isFinite hn, Number.isInf_of_isFinite hn,
    if_neg Bool.false_ne_true, if_neg Bool.false_ne_true, hprintf]
  dsimp only
  rw [CellFormat.fraction?_eq_none n hfractions]

theorem CellFormat.IsDefault.number? {f : CellFormat} {defaults : FormatDefaults} {p : ℕ}
    (h : f.IsDefault defaults p) {n : Float} (hn : n.isFinite) :
    f.number? defaults n = Formatter.limited.general p n := by
  rw [CellFormat.number?, numberBy_eq_styled _ _ h.printf h.fractions hn, h.style, h.precision]
  rfl

theorem Printf.Conversion.IsGeneral.bodyBy {c : Printf.Conversion} {p : ℕ} (h : c.IsGeneral p)
    (defaultPrecision : ℕ) (n : Float) : ∃ upper, c.bodyBy .limited defaultPrecision n =
      Printf.generalText .limited upper false p n.abs := by
  obtain ⟨upper, hkind⟩ := h.kind
  refine ⟨upper, ?_⟩
  unfold Printf.Conversion.bodyBy
  rw [hkind, h.alternate, h.precision]

section Given

open Number

variable {n : Float} (hn : n.isFinite) {p : ℕ} (hp : 1 ≤ p)

include hn hp

theorem givenIf_general_large (hlarge : ∀ k : ℤ, exact n = k → 10 ^ 15 ≤ |k|) :
    GivenIf (DecimalsFit (-5) p (roundedExponent p (exact n))) (Formatter.limited.general p n)
      (general p n) := by
  obtain ⟨places, rfl⟩ := Nat.exists_eq_add_of_le' hp
  obtain ⟨hzero, hcondition⟩ := not_small_of_large hn hlarge
  have hgiven := Formatter.givenIf_general (places + 1) n
  rw [Nat.add_sub_cancel, snd_scientificParts hn hzero] at hgiven
  exact hgiven.congr (forall_prop_of_true hcondition)

theorem givenIf_styled (log10 : Float → Float) (style : FloatStyle) :
    GivenIf (style.Fits p (exact n)) (Formatter.limited.styled log10 style p n)
      (Formatter.unlimited.styled log10 style p n).run := by
  cases style with
  | normal =>
    by_cases hlarge : ∀ k : ℤ, exact n = k → 10 ^ 15 ≤ |k|
    case pos => exact (givenIf_general_large hn hp hlarge).congr ⟨fun h _ => h, fun h => h hlarge⟩
    case neg =>
      have hcondition : isWhole n && n.abs < 1e15 := by
        rw [isWhole_and_abs_lt_iff hn]
        push Not at hlarge
        exact hlarge
      exact (Formatter.givenIf_general p n).congr
        (iff_of_true (absurd hcondition) fun h => absurd h hlarge)
  | fixed digits => exact Formatter.givenIf_fixed digits n
  | scientific digits => exact Formatter.givenIf_scientific digits n
  | engineering digits => exact Formatter.givenIf_engineering log10 digits n

end Given

end Rollup
