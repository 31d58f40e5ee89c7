import Rollup.Number.Numeral
import Rollup.Proofs.Double.View

/-! # The signs of doubles

A double that is a number has a sign, and NaN has none. Which sign a result has, and that it has
one, follows from the signs of the operands.
-/

namespace Rollup.Number

open Float.Model
open Float.Model.UnpackedFloat (Sign)

/-! ## The sign of a number -/

def unpackedSign? : UnpackedFloat → Option Sign
  | .notANumber => none
  | .infinity s => some s
  | .zero s => some s
  | .finite s _ _ _ => some s

/-- The sign of a double, unless it is NaN. -/
def sign? (x : Float) : Option Sign := unpackedSign? (view x)

theorem isNaN_iff_sign?_eq_none (x : Float) : x.isNaN ↔ sign? x = none := by
  unfold sign? view Float.isNaN Float.Model.isNaN
  cases x.toModel.unpack <;> simp [UnpackedFloat.isNaN, unpackedSign?]

/-! ## Storing keeps the sign -/

/-- An exponent field that is not all ones belongs to a number. -/
theorem unpackedSign?_packComponents {s : Sign} {e : BitVec 11} {m : BitVec 52}
    (he : e ≠ -1#11) :
    unpackedSign? (UnpackedFloat.unpack Format.binary64
      (UnpackedFloat.packComponents Format.binary64 s e m)) = some s := by
  unfold UnpackedFloat.unpack
  simp only [UnpackedFloat.unpackExponent_packComponents,
    UnpackedFloat.unpackMantissa_packComponents, UnpackedFloat.unpackSign_packComponents,
    Sign.ofBitVec_toBitVec, if_neg he]
  split
  · split <;> rfl
  · rfl

theorem unpackedSign?_stored (f : UnpackedFloat) : unpackedSign? (stored f) = unpackedSign? f := by
  unfold stored
  fun_cases UnpackedFloat.pack Format.binary64 f with
  | case1 => rfl
  | case2 s => cases s <;> rfl
  | case3 s => cases s <;> rfl
  | case4 s => cases s <;> rfl
  | case5 s m e _ _ biased hb =>
    refine unpackedSign?_packComponents fun h => ?_
    have hv := congrArg BitVec.toNat h
    rw [BitVec.toNat_ofNat] at hv
    change biased % 2048 = 2047 at hv
    change ¬ 2048 ≤ biased + 1 at hb
    omega
  | case6 s => exact unpackedSign?_packComponents (by decide)

/-! ## Operations -/

theorem sign?_assemble (f : UnpackedFloat) : sign? (assemble f) = unpackedSign? f := by
  rw [sign?, view_assemble, unpackedSign?_stored]

@[simp] theorem sign?_neg (x : Float) : sign? (-x) = (sign? x).map (- ·) := by
  rw [neg_eq, sign?_assemble, sign?]
  cases view x <;> rfl

theorem unpackedSign?_roundWithAccuracy (s : Sign) (m : Nat) (e : Int)
    (a : UnpackedFloat.Accuracy) :
    unpackedSign? (UnpackedFloat.roundWithAccuracy Format.binary64 s m e a) = some s := by
  simp only [UnpackedFloat.roundWithAccuracy]
  split <;> rfl

theorem unpackedSign?_round (s : Sign) (m : Nat) (e : Int) :
    unpackedSign? (UnpackedFloat.round Format.binary64 s m e) = some s :=
  unpackedSign?_roundWithAccuracy s _ _ _

/-- Neither zero nor infinite, so that a product or quotient with it is a number. -/
def IsFinitePositive (x : Float) : Prop := ∃ m e h, view x = .finite .positive m e h

theorem IsFinitePositive.sign? {x : Float} (h : IsFinitePositive x) :
    sign? x = some .positive := by
  obtain ⟨m, e, hm, hv⟩ := h
  rw [Number.sign?, hv, unpackedSign?]

theorem sign?_mul {x y : Float} (hy : IsFinitePositive y) : sign? (x * y) = sign? x := by
  obtain ⟨m, e, hm, hv⟩ := hy
  rw [mul_eq, sign?_assemble, hv, sign?]
  cases view x with
  | infinity s => cases s <;> rfl
  | notANumber => rfl
  | zero s => cases s <;> rfl
  | finite s => cases s <;> exact unpackedSign?_roundWithAccuracy ..

theorem sign?_div {x y : Float} (hy : IsFinitePositive y) : sign? (x / y) = sign? x := by
  obtain ⟨m, e, hm, hv⟩ := hy
  rw [div_eq, sign?_assemble, hv, sign?]
  cases view x with
  | infinity s => cases s <;> rfl
  | notANumber => rfl
  | zero s => cases s <;> rfl
  | finite s => cases s <;> exact unpackedSign?_roundWithAccuracy ..

theorem unpackedSign?_normalize {n : Int} (hn : 0 ≤ n) (e : Int) :
    unpackedSign? (UnpackedFloat.normalize Format.binary64 n e .positive) = some .positive := by
  unfold UnpackedFloat.normalize
  split
  case h_1 h => exact absurd (Int.compare_eq_lt.mp h) (by omega)
  case h_2 => rfl
  case h_3 => exact unpackedSign?_round ..

theorem unpackedSign?_add {f g : UnpackedFloat} (hf : unpackedSign? f = some .positive)
    (hg : unpackedSign? g = some .positive) :
    unpackedSign? (UnpackedFloat.add Format.binary64 f g) = some .positive := by
  cases f <;> cases g <;>
    simp only [unpackedSign?, reduceCtorEq, Option.some.injEq] at hf hg <;> subst hf hg
  case finite.finite m₁ e₁ h₁ m₂ e₂ h₂ =>
    exact unpackedSign?_normalize (Int.add_nonneg (Int.natCast_nonneg _) (Int.natCast_nonneg _)) _
  all_goals rfl

/-- The sum of numbers that are not negative is a number, even beyond all bounds. -/
theorem sign?_add {x y : Float} (hx : sign? x = some .positive) (hy : sign? y = some .positive) :
    sign? (x + y) = some .positive := by
  rw [add_eq, sign?_assemble]
  exact unpackedSign?_add hx hy

/-! ## Whole numbers and decimals -/

/-- The mantissa of a power of ten, with all 53 binary digits. -/
def tenMantissa (e : Nat) : Nat := 10 ^ e * 2 ^ 52 / 2 ^ (10 ^ e).log2

def tenExponent (e : Nat) : Int := (10 ^ e).log2 - 52

theorem le_tenMantissa (e : Nat) : 2 ^ 52 ≤ tenMantissa e := by
  have hlog : 2 ^ (10 ^ e).log2 ≤ 10 ^ e := Nat.log2_self_le (by positivity)
  rw [tenMantissa, Nat.le_div_iff_mul_le (by positivity), Nat.mul_comm]
  exact Nat.mul_le_mul_right _ hlog

theorem tenMantissa_lt (e : Nat) : tenMantissa e < 2 ^ 53 := by
  have hlog : 10 ^ e < 2 ^ ((10 ^ e).log2 + 1) := Nat.lt_log2_self
  rw [tenMantissa, Nat.div_lt_iff_lt_mul (by positivity)]
  have hsplit : 2 ^ ((10 ^ e).log2 + 1) * 2 ^ 52 = 2 ^ 53 * 2 ^ (10 ^ e).log2 := by ring
  exact lt_of_lt_of_eq (Nat.mul_lt_mul_of_pos_right hlog (by positivity)) hsplit

theorem tenMantissa_pos (e : Nat) : 0 < tenMantissa e :=
  lt_of_lt_of_le (by positivity) (le_tenMantissa e)

theorem canonical_ten {e : Nat} (h : e < 23) : Canonical (tenMantissa e) (tenExponent e) := by
  have hlog : (10 ^ e).log2 < 74 := by
    rw [Nat.log2_lt (by positivity)]
    exact lt_of_le_of_lt (Nat.pow_le_pow_right (by decide) (by omega : e ≤ 22)) (by decide)
  refine ⟨tenMantissa_pos e, tenMantissa_lt e, ?_, ?_, .inl (le_tenMantissa e)⟩
  · unfold tenExponent; omega
  · unfold tenExponent; omega

/-- The powers of ten in the table are exact. -/
theorem powerOfTen_eq (e : Fin 23) : Float.exactlyRepresentablePowersOfTen[e] =
    assemble (.finite .positive (tenMantissa e) (tenExponent e) (tenMantissa_pos e)) := by
  revert e
  decide

theorem view_powerOfTen (e : Nat) (h : e < 23) :
    view Float.exactlyRepresentablePowersOfTen[e] =
      .finite .positive (tenMantissa e) (tenExponent e) (tenMantissa_pos e) :=
  (congrArg view (powerOfTen_eq ⟨e, h⟩)).trans
    (view_assemble_of_proper (f := .finite .positive _ _ (tenMantissa_pos e)) (canonical_ten h))

theorem unpackedSign?_ofScientific (m : Nat) (e : Int) :
    unpackedSign? (UnpackedFloat.ofScientific Format.binary64 m e) = some .positive := by
  unfold UnpackedFloat.ofScientific
  split_ifs
  · rfl
  · rfl
  · rfl
  · exact unpackedSign?_roundWithAccuracy ..
  · exact unpackedSign?_roundWithAccuracy ..

theorem sign?_ofScientific (m : Nat) (s : Bool) (e : Nat) :
    sign? (OfScientific.ofScientific m s e) = some .positive := by
  change sign? (Float.ofScientific m s e) = _
  unfold Float.ofScientific
  split
  case isTrue h =>
    have hv := view_powerOfTen e (by omega)
    have hm : sign? m.toUInt64.toFloat = some .positive :=
      (sign?_assemble _).trans (unpackedSign?_normalize (Int.natCast_nonneg _) _)
    dsimp only
    split
    · exact (sign?_div ⟨_, _, _, hv⟩).trans hm
    · exact (sign?_mul ⟨_, _, _, hv⟩).trans hm
  case isFalse => exact (sign?_assemble _).trans (unpackedSign?_ofScientific m _)

theorem sign?_ofNat (n : Nat) : sign? (Float.ofNat n) = some .positive :=
  sign?_ofScientific n false 0

theorem sign?_ofInt_ne_none (n : Int) : sign? (Float.ofInt n) ≠ none := by
  cases n with
  | ofNat n =>
    rw [Float.ofInt, sign?_ofNat]
    simp
  | negSucc n =>
    change sign? (-Float.ofNat (n + 1)) ≠ none
    rw [sign?_neg, sign?_ofNat]
    simp

theorem sign?_ofDecimal (m : Nat) (e : Int) : sign? (ofDecimal m e) = some .positive := by
  unfold ofDecimal
  dsimp only
  split_ifs
  · rfl
  · rfl
  · exact sign?_ofScientific ..
  · exact sign?_ofScientific ..

end Rollup.Number
