import Mathlib
import Rollup.Number.Binary64

/-! # Doubles taken apart

The bits of a double are a sign, an exponent field and a mantissa field. Taking a double apart and
putting the parts together again loses nothing, and neither does the other way round for the parts
that a double can have.
-/

namespace Rollup.Number

open Float.Model
open Float.Model.UnpackedFloat (Sign)

/-- A double taken apart into sign, mantissa and exponent. -/
def view (x : Float) : UnpackedFloat := x.toModel.unpack

/-- A double put together. -/
def assemble (f : UnpackedFloat) : Float := .ofModel (.pack f)

/-- What is left of the parts after they are put together and taken apart again. -/
def stored (f : UnpackedFloat) : UnpackedFloat :=
  UnpackedFloat.unpack Format.binary64 (UnpackedFloat.pack Format.binary64 f)

theorem view_assemble (f : UnpackedFloat) : view (assemble f) = stored f := rfl

theorem neg_eq (x : Float) : -x = assemble (view x).neg := rfl

theorem add_eq (x y : Float) :
    x + y = assemble (UnpackedFloat.add Format.binary64 (view x) (view y)) := rfl

theorem mul_eq (x y : Float) :
    x * y = assemble (UnpackedFloat.mul Format.binary64 (view x) (view y)) := rfl

theorem div_eq (x y : Float) :
    x / y = assemble (UnpackedFloat.div Format.binary64 (view x) (view y)) := rfl

/-! ## Fields -/

section Fields

open Float.Model.UnpackedFloat (packComponents)

theorem toNat_packComponents (s : Sign) (e : BitVec 11) (m : BitVec 52) :
    (packComponents Format.binary64 s e m).toNat =
      s.toBitVec.toNat * 2 ^ 63 + e.toNat * 2 ^ 52 + m.toNat := by
  have he : (s.toBitVec ++ e).toNat = s.toBitVec.toNat * 2 ^ 11 + e.toNat := by
    rw [BitVec.toNat_append, ← Nat.shiftLeft_add_eq_or_of_lt e.isLt, Nat.shiftLeft_eq]
  unfold packComponents
  change (s.toBitVec ++ e ++ m).toNat = _
  rw [BitVec.toNat_append, ← Nat.shiftLeft_add_eq_or_of_lt m.isLt, Nat.shiftLeft_eq, he]
  ring

theorem toNat_one_append (m : BitVec 52) : (1#1 ++ m).toNat = 2 ^ 52 + m.toNat := by
  rw [BitVec.toNat_append, ← Nat.shiftLeft_add_eq_or_of_lt m.isLt, Nat.shiftLeft_eq]
  rfl

end Fields

/-! ## Finite doubles -/

theorem finite_congr {s : Sign} {m m' : Nat} {e e' : Int} {h : 0 < m} {h' : 0 < m'}
    (hm : m = m') (he : e = e') : UnpackedFloat.finite s m e h = .finite s m' e' h' := by
  subst hm he
  rfl

theorem log2_eq_52 {m : Nat} (hlow : 2 ^ 52 ≤ m) (hhigh : m < 2 ^ 53) : m.log2 = 52 := by
  have hm : m ≠ 0 := by omega
  have := (Nat.le_log2 hm).mpr hlow
  have := (Nat.log2_lt hm).mpr hhigh
  omega

theorem pack_finite (s : Sign) (m : Nat) (e : Int) (h : 0 < m) :
    UnpackedFloat.pack Format.binary64 (.finite s m e h) =
      if 2048 ≤ (e + 1075).toNat + 1 then UnpackedFloat.packedInfinity Format.binary64 s
      else if m.log2 = 52 then
        UnpackedFloat.packComponents Format.binary64 s (.ofNat 11 (e + 1075).toNat) (.ofNat 52 m)
      else UnpackedFloat.packComponents Format.binary64 s 0#11 (.ofNat 52 m) := by
  have hbiased : (e + 1023 + 52).toNat = (e + 1075).toNat := by omega
  have hlog : (m.log2 = 52) = (m.log2 + 1 = 53) := by simp
  rw [← hbiased]
  simp only [hlog]
  rfl

section Shapes

variable {s : Sign} {e : BitVec 11} {m : BitVec 52}

theorem toNat_exponent_lt (he : e ≠ -1#11) : e.toNat < 2047 := by
  have hlt := e.isLt
  have hne : e.toNat ≠ 2047 := fun h => he (BitVec.eq_of_toNat_eq h)
  omega

theorem toNat_exponent_pos (he : e ≠ 0#11) : 0 < e.toNat := by
  have hne : e.toNat ≠ 0 := fun h => he (BitVec.eq_of_toNat_eq h)
  omega

theorem toNat_mantissa_pos (hm : m ≠ 0#52) : 0 < m.toNat := by
  have hne : m.toNat ≠ 0 := fun h => hm (BitVec.eq_of_toNat_eq h)
  omega

theorem pack_normal (h1 : e ≠ -1#11) :
    UnpackedFloat.pack Format.binary64 (.finite s (2 ^ 52 + m.toNat) (e.toNat - 1075) (by omega)) =
      UnpackedFloat.packComponents Format.binary64 s e m := by
  have hlt := toNat_exponent_lt h1
  have hm := m.isLt
  have hbiased : ((e.toNat : Int) - 1075 + 1075).toNat = e.toNat := by omega
  rw [pack_finite, hbiased, if_neg (by omega), if_pos (log2_eq_52 (by omega) (by omega))]
  congr 1
  · simp
  · apply BitVec.eq_of_toNat_eq
    rw [BitVec.toNat_ofNat]
    omega

theorem pack_subnormal (hm : m ≠ 0#52) :
    UnpackedFloat.pack Format.binary64 (.finite s m.toNat (-1074) (toNat_mantissa_pos hm)) =
      UnpackedFloat.packComponents Format.binary64 s 0#11 m := by
  have hpos := toNat_mantissa_pos hm
  have hlog : m.toNat.log2 < 52 := (Nat.log2_lt (by omega)).mpr m.isLt
  rw [pack_finite, if_neg (by decide), if_neg (by omega)]
  congr 1
  simp

theorem unpack_normal (h0 : e ≠ 0#11) (h1 : e ≠ -1#11) :
    UnpackedFloat.unpack Format.binary64 (UnpackedFloat.packComponents Format.binary64 s e m) =
      .finite s (2 ^ 52 + m.toNat) (e.toNat - 1075) (by omega) := by
  unfold UnpackedFloat.unpack
  simp only [UnpackedFloat.unpackExponent_packComponents,
    UnpackedFloat.unpackMantissa_packComponents, UnpackedFloat.unpackSign_packComponents,
    Sign.ofBitVec_toBitVec]
  rw [if_neg h1, if_neg h0]
  exact finite_congr (toNat_one_append m) rfl

theorem unpack_subnormal (hm : m ≠ 0#52) :
    UnpackedFloat.unpack Format.binary64 (UnpackedFloat.packComponents Format.binary64 s 0#11 m) =
      .finite s m.toNat (-1074) (toNat_mantissa_pos hm) := by
  unfold UnpackedFloat.unpack
  simp only [UnpackedFloat.unpackExponent_packComponents,
    UnpackedFloat.unpackMantissa_packComponents, UnpackedFloat.unpackSign_packComponents,
    Sign.ofBitVec_toBitVec]
  rw [if_neg (by decide), if_pos trivial, dif_neg hm]
  exact finite_congr rfl rfl

end Shapes

/-- The mantissas and exponents of the finite doubles other than zero. -/
structure Canonical (m : Nat) (e : Int) : Prop where
  pos : 0 < m
  small : m < 2 ^ 53
  least : -1074 ≤ e
  most : e ≤ 971
  full : 2 ^ 52 ≤ m ∨ e = -1074

/-- The mantissas and exponents that rounding gives, also those beyond the largest double. -/
structure Normalized (m : Nat) (e : Int) : Prop where
  pos : 0 < m
  small : m < 2 ^ 53
  least : -1074 ≤ e
  full : 2 ^ 52 ≤ m ∨ e = -1074

theorem Canonical.normalized {m : Nat} {e : Int} (h : Canonical m e) : Normalized m e :=
  ⟨h.pos, h.small, h.least, h.full⟩

/-- A canonical mantissa and exponent have fields that hold them. -/
theorem Canonical.fields {m : Nat} {e : Int} (h : Canonical m e) :
    (∃ (E : BitVec 11) (M : BitVec 52), E ≠ 0#11 ∧ E ≠ -1#11 ∧ m = 2 ^ 52 + M.toNat ∧
      e = E.toNat - 1075) ∨
    ∃ M : BitVec 52, M ≠ 0#52 ∧ m = M.toNat ∧ e = -1074 := by
  obtain ⟨hpos, hsmall, hleast, hmost, hfull⟩ := h
  by_cases hm : 2 ^ 52 ≤ m
  · have hexp : (BitVec.ofNat 11 (e + 1075).toNat).toNat = (e + 1075).toNat := by
      rw [BitVec.toNat_ofNat]; omega
    refine .inl ⟨.ofNat 11 (e + 1075).toNat, .ofNat 52 m, ?_, ?_, ?_, ?_⟩
    · rintro h
      have := congrArg BitVec.toNat h
      rw [hexp] at this
      change _ = 0 at this
      omega
    · rintro h
      have := congrArg BitVec.toNat h
      rw [hexp] at this
      change _ = 2047 at this
      omega
    · rw [BitVec.toNat_ofNat]; omega
    · rw [hexp]; omega
  · have hmant : (BitVec.ofNat 52 m).toNat = m := by rw [BitVec.toNat_ofNat]; omega
    refine .inr ⟨.ofNat 52 m, ?_, hmant.symm, by omega⟩
    rintro h
    have := congrArg BitVec.toNat h
    rw [hmant] at this
    change _ = 0 at this
    omega

theorem canonical_normal {e : BitVec 11} {m : BitVec 52} (h0 : e ≠ 0#11) (h1 : e ≠ -1#11) :
    Canonical (2 ^ 52 + m.toNat) (e.toNat - 1075) := by
  have := toNat_exponent_pos h0
  have := toNat_exponent_lt h1
  have := m.isLt
  constructor <;> omega

theorem canonical_subnormal {m : BitVec 52} (hm : m ≠ 0#52) : Canonical m.toNat (-1074) := by
  have := toNat_mantissa_pos hm
  have := m.isLt
  constructor <;> omega

/-! ## Both ways -/

/-- The parts that taking a double apart can give. -/
def Proper : UnpackedFloat → Prop
  | .finite _ m e _ => Canonical m e
  | _ => True

theorem stored_of_proper {f : UnpackedFloat} (h : Proper f) : stored f = f := by
  cases f with
  | infinity s => cases s <;> rfl
  | notANumber => rfl
  | zero s => cases s <;> rfl
  | finite s m e hm =>
    rcases Canonical.fields h with ⟨E, M, h0, h1, rfl, rfl⟩ | ⟨M, hM, rfl, rfl⟩
    · exact (congrArg _ (pack_normal h1)).trans (unpack_normal h0 h1)
    · exact (congrArg _ (pack_subnormal hM)).trans (unpack_subnormal hM)

theorem view_assemble_of_proper {f : UnpackedFloat} (h : Proper f) : view (assemble f) = f :=
  stored_of_proper h

theorem proper_view (x : Float) : Proper (view x) := by
  change Proper (UnpackedFloat.unpack Format.binary64 x.toBits.toBitVec)
  fun_cases UnpackedFloat.unpack Format.binary64 x.toBits.toBitVec with
  | case1 => trivial
  | case2 => trivial
  | case3 => trivial
  | case4 m e _ _ _ _ he hm =>
    change Canonical m.toNat ((e.toNat : ℤ) - 1075 + 1)
    rw [he]
    exact canonical_subnormal hm
  | case5 m e _ _ _ h1 h0 =>
    change Canonical (1#1 ++ m).toNat _
    rw [toNat_one_append]
    exact canonical_normal h0 h1

theorem assemble_view (x : Float) : assemble (view x) = x := Float.ofBits_toBits x

theorem exists_proper (x : Float) : ∃ f, Proper f ∧ x = assemble f :=
  ⟨view x, proper_view x, (assemble_view x).symm⟩

theorem neg_neg_eq (x : Float) : - -x = x := by
  obtain ⟨f, hf, rfl⟩ := exists_proper x
  have hneg : Proper f.neg := by cases f <;> exact hf
  rw [neg_eq (assemble f), view_assemble_of_proper hf, neg_eq, view_assemble_of_proper hneg]
  cases f with
  | notANumber => rfl
  | infinity s => cases s <;> rfl
  | zero s => cases s <;> rfl
  | finite s m e hm => cases s <;> rfl

theorem isNaN_of_isFinite {n : Float} (h : n.isFinite) : n.isNaN = false := by
  obtain ⟨f, hf, rfl⟩ := exists_proper n
  change (view (assemble f)).isFinite at h
  change (view (assemble f)).isNaN = false
  rw [view_assemble_of_proper hf] at h ⊢
  cases f <;> first | rfl | cases h

end Rollup.Number
