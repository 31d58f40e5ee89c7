import Mathlib.Data.Int.Notation
import Mathlib.Data.Nat.Notation
import Rollup.Format.Basic
import Rollup.Proofs.Given

/-! # Decimals that can be formatted

Where a style gives a text, the text is the one that it has without a limit on the decimals. In the
default style, and in conversions of kind `g`, the decimals hang on the exponent of the number.
-/

namespace Rollup

/-- The decimals of `p` significant digits can be formatted. A number with an exponent below `least`
is in scientific notation, in which only the digits after the first are decimals. -/
structure DecimalsFit (least : ℤ) (p : ℕ) (exponent : ℤ) : Prop where
  scientific : p - 1 ≤ Text.formatLimit
  fixed : exponent < least ∨ p - 1 - exponent ≤ Text.formatLimit

theorem decimalsFit_iff {least : ℤ} {p : ℕ} {exponent : ℤ} : DecimalsFit least p exponent ↔
    p - 1 ≤ Text.formatLimit ∧ (exponent < least ∨ p - 1 - exponent ≤ Text.formatLimit) :=
  ⟨fun h => ⟨h.scientific, h.fixed⟩, fun h => ⟨h.1, h.2⟩⟩

/-- Few enough digits fit at every exponent. -/
theorem DecimalsFit.of_le {least : ℤ} {p : ℕ} (hp : p - least ≤ Text.formatLimit + 1)
    (hleast : least ≤ 0) (exponent : ℤ) : DecimalsFit least p exponent := by
  refine ⟨by omega, ?_⟩
  rcases Int.lt_or_le exponent least with h | h
  · exact .inl h
  · exact .inr (by omega)

namespace Formatter

theorem givenIf_fixed (places : ℕ) (x : Float) :
    GivenIf (places ≤ Text.formatLimit) (limited.fixed places x) (Number.fixed places x) :=
  givenIf_ite _ _

theorem givenIf_scientific (places : ℕ) (x : Float) : GivenIf (places ≤ Text.formatLimit)
    (limited.scientific places x) (Number.scientific places x) :=
  givenIf_ite _ _

theorem givenIf_scientificParts (places : ℕ) (x : Float) : GivenIf (places ≤ Text.formatLimit)
    (limited.scientificParts places x) (Number.scientificParts places x) :=
  givenIf_ite _ _

/-- The choice between scientific notation, which the decimals after the first digit allow, and
fixed notation. -/
theorem givenIf_notation {α : Type} {least exponent : ℤ} {p : ℕ} {x y : Option α} {a b : α}
    (hx : GivenIf (p - 1 ≤ Text.formatLimit) x a)
    (hy : GivenIf ((p - 1 - exponent).toNat ≤ Text.formatLimit) y b)
    (hp : p - 1 ≤ Text.formatLimit) :
    GivenIf (exponent < least ∨ p - 1 - exponent ≤ Text.formatLimit)
      (if exponent < least ∨ (p : ℤ) ≤ exponent then x else y)
      (if exponent < least ∨ (p : ℤ) ≤ exponent then a else b) := by
  split
  case isTrue h => exact hx.congr (by omega)
  case isFalse h => exact hy.congr (by omega)

theorem givenIf_general (p : ℕ) (n : Float) :
    GivenIf (¬ (Number.isWhole n && n.abs < 1e15) →
        DecimalsFit (-5) p (Number.scientificParts (p - 1) n).2)
      (limited.general p n) (Number.general p n) := by
  rw [Number.general_eq]
  unfold general
  split
  case isTrue h => exact (givenIf_some _).congr (by simp [h])
  case isFalse h =>
    obtain ⟨⟨mantissa, exponent⟩, hparts⟩ : ∃ parts, Number.scientificParts (p - 1) n = parts :=
      ⟨_, rfl⟩
    have hgiven := givenIf_scientificParts (p - 1) n
    rw [hparts] at hgiven ⊢
    refine (hgiven.bind (q := exponent < -5 ∨ p - 1 - exponent ≤ Text.formatLimit)
      fun hp => ?_).congr (by simp [h, decimalsFit_iff])
    exact givenIf_notation ((givenIf_some _).congr (iff_of_true trivial hp))
      ((givenIf_fixed _ n).bind_pure Number.trimZeros) hp

theorem givenIf_engineering (log10 : Float → Float) (digits : ℕ) (n : Float) :
    GivenIf (digits ≤ Text.formatLimit) (limited.engineering log10 digits n)
      (unlimited.engineering log10 digits n).run := by
  unfold engineering
  split
  · exact givenIf_fixed digits 0
  · exact (givenIf_fixed digits _).bind_pure _

end Formatter

namespace Printf

open Formatter

theorem givenIf_exponentText (upper : Bool) (decimals : ℕ) (size : Float) :
    GivenIf (decimals ≤ Text.formatLimit) (exponentText limited upper decimals size)
      (exponentText unlimited upper decimals size).run :=
  (givenIf_scientificParts decimals size).bind_pure _

theorem givenIf_generalText (upper alternate : Bool) (p : ℕ) (size : Float) :
    GivenIf (size != 0 → DecimalsFit (-4) p (Number.scientificParts (p - 1) size).2)
      (generalText limited upper alternate p size)
      (generalText unlimited upper alternate p size).run := by
  unfold generalText
  split
  case isTrue h => exact (givenIf_some ['0']).congr (by simp [bne, h])
  case isFalse h =>
    obtain ⟨⟨mantissa, exponent⟩, hparts⟩ : ∃ parts, Number.scientificParts (p - 1) size = parts :=
      ⟨_, rfl⟩
    have hunlimited : unlimited.scientificParts (p - 1) size = (mantissa, exponent) := hparts
    have hgiven := givenIf_scientificParts (p - 1) size
    rw [hparts] at hgiven ⊢
    rw [Id.run_bind, hunlimited]
    refine (hgiven.bind (q := exponent < -4 ∨ p - 1 - exponent ≤ Text.formatLimit)
      fun hp => ?_).congr (by simp [bne, h, decimalsFit_iff])
    exact givenIf_notation
      ((givenIf_exponentText upper (p - 1) size).bind_pure (trimmedMantissa alternate))
      ((givenIf_fixed _ size).bind_pure (trimmed alternate)) hp

variable {p : ℕ} {c : Conversion} (n : Float)

theorem limited_body (hp : p + 4 ≤ Text.formatLimit)
    (hc : c.precision.getD 6 + 4 ≤ Text.formatLimit) : c.bodyBy limited p n = some (c.body p n) := by
  have hlimit : Text.formatLimit = 65535 := rfl
  unfold Conversion.body Conversion.bodyBy
  cases c.kind with
  | whole | octal => rfl
  | fixed => exact (givenIf_fixed _ _).eq_some (by omega)
  | exponent upper => exact (givenIf_exponentText _ _ _).eq_some (by omega)
  | general upper => exact (givenIf_generalText _ _ _ _).eq_some fun _ => .of_le (by omega) (by omega) _
  | hexadecimal upper => cases upper <;> rfl
  | string =>
    have hgeneral := (givenIf_general (max p 1) n).eq_some fun _ => .of_le (by omega) (by omega) _
    dsimp only
    rw [hgeneral]
    cases c.precision <;> rfl

theorem limited_render {pattern : Printf} (hp : p + 4 ≤ Text.formatLimit)
    (hpattern : ∀ c, .conversion c ∈ pattern → c.precision.getD 6 + 4 ≤ Text.formatLimit) :
    pattern.renderBy limited p n = some (pattern.renderBy unlimited p n).run := by
  have hpiece : ∀ piece ∈ pattern, GivenIf True (piece.renderBy limited p n)
      (piece.renderBy unlimited p n).run := by
    rintro (t | c) hmem
    · exact givenIf_some t
    · refine ⟨fun _ => ?_, fun h => absurd trivial h⟩
      change c.fill (c.sign n) <$> c.bodyBy limited p n = some (c.fill (c.sign n) (c.body p n))
      rw [limited_body n hp (hpattern c hmem)]
      rfl
  have hpieces := (givenIf_mapM hpiece).eq_some fun _ _ => trivial
  unfold renderBy
  rw [hpieces, Id.run_map, List.idRun_mapM]
  rfl

end Printf

/-- The digits after the point that a style asks for. -/
def FloatStyle.decimals : FloatStyle → ℕ
  | .normal => 0
  | .fixed digits | .scientific digits | .engineering digits => digits

theorem Formatter.limited_styled (log10 : Float → Float) {style : FloatStyle} {p : ℕ} (n : Float)
    (hp : p + 4 ≤ Text.formatLimit) (hstyle : style.decimals ≤ Text.formatLimit) :
    limited.styled log10 style p n = some (unlimited.styled log10 style p n).run := by
  cases style with
  | normal => exact (givenIf_general p n).eq_some fun _ => .of_le (by omega) (by omega) _
  | fixed digits => exact (givenIf_fixed digits n).eq_some hstyle
  | scientific digits => exact (givenIf_scientific digits n).eq_some hstyle
  | engineering digits => exact (givenIf_engineering log10 digits n).eq_some hstyle

/-- The digits that a format asks for can be formatted, whatever the number. -/
structure CellFormat.FewDigits (f : CellFormat) (defaults : FormatDefaults) : Prop where
  default : defaults.precision + 4 ≤ Text.formatLimit
  precision : f.precision.getD defaults.precision + 4 ≤ Text.formatLimit
  style : (f.floatStyle.getD defaults.floatStyle).decimals ≤ Text.formatLimit
  pattern : ∀ p ∈ f.printf, ∀ c, .conversion c ∈ p → c.precision.getD 6 + 4 ≤ Text.formatLimit

/-- Then the limit on the decimals makes no difference. -/
theorem CellFormat.FewDigits.number?_eq_some {f : CellFormat} {defaults : FormatDefaults}
    (h : f.FewDigits defaults) (n : Float) : f.number? defaults n = some (f.number defaults n) := by
  have hlimit : Text.formatLimit = 65535 := rfl
  have hprecision := h.precision
  unfold number number? numberBy
  split
  · rfl
  split
  · rfl
  split
  case h_1 p hp => exact Printf.limited_render n h.default (h.pattern p hp)
  case h_2 =>
    split
    · rfl
    · exact Formatter.limited_styled _ n (by omega) h.style

end Rollup
