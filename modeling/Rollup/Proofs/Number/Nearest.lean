import Mathlib.Data.Rat.Floor
import Mathlib.Tactic.Linarith
import Mathlib.Tactic.FieldSimp
import Mathlib.Tactic.Ring
import Rollup.Number.Decimal

/-! # The nearest whole number

A number is rounded to the nearest whole number, and to the even one of two that are equally near.
-/

namespace Rollup.Number

/-- The nearest whole number; a tie goes to the even one. -/
def nearestEven (q : ℚ) : ℤ :=
  if 2 * Int.fract q < 1 then ⌊q⌋ else if 1 < 2 * Int.fract q then ⌊q⌋ + 1 else ⌊q⌋ + ⌊q⌋ % 2

/-- No whole number is nearer, and `m` is even where another one is as near. -/
structure IsNearestEven (q : ℚ) (m : ℤ) : Prop where
  near : |q - m| ≤ 1 / 2
  even : |q - m| = 1 / 2 → m % 2 = 0

theorem isNearestEven_nearestEven (q : ℚ) : IsNearestEven q (nearestEven q) := by
  have hq := Int.floor_add_fract q
  have hlow := Int.fract_nonneg q
  have hhigh := Int.fract_lt_one q
  unfold nearestEven
  split
  case isTrue hdown =>
    have habs : |q - ⌊q⌋| = Int.fract q := by rw [abs_of_nonneg] <;> linarith
    exact ⟨by linarith, fun h => by linarith⟩
  case isFalse hdown =>
    split
    case isTrue hup =>
      have habs : |q - (⌊q⌋ + 1 : ℤ)| = 1 - Int.fract q := by
        push_cast
        rw [abs_of_neg] <;> linarith
      exact ⟨by linarith, fun h => by linarith⟩
    case isFalse hup =>
      have hhalf : Int.fract q = 1 / 2 := by linarith
      refine ⟨?_, fun _ => by omega⟩
      rcases Int.emod_two_eq_zero_or_one ⌊q⌋ with h | h <;> rw [h] <;> push_cast <;>
        rw [abs_le] <;> constructor <;> linarith

variable {q : ℚ} {m n : ℤ}

theorem IsNearestEven.unique (hm : IsNearestEven q m) (hn : IsNearestEven q n) : m = n := by
  have hm' := abs_le.mp hm.near
  have hn' := abs_le.mp hn.near
  have hle : ∀ {a b : ℤ}, (a : ℚ) < b + 2 → a ≤ b + 1 := fun {a b} h => by
    have h' : a < b + 2 := by exact_mod_cast h
    omega
  have h1 : m ≤ n + 1 := hle (by linarith)
  have h2 : n ≤ m + 1 := hle (by linarith)
  -- neighbours are both nearest at a tie only, where both would be even
  have htie : ∀ {a b : ℤ}, a = b + 1 → IsNearestEven q a → IsNearestEven q b → False := by
    rintro a b rfl ha hb
    have ha' := abs_le.mp ha.near
    have hb' := abs_le.mp hb.near
    push_cast at ha'
    have h1 := ha.even (by push_cast; rw [abs_of_nonpos] <;> linarith)
    have h2 := hb.even (by rw [abs_of_nonneg] <;> linarith)
    omega
  by_contra hne
  rcases (by omega : m = n + 1 ∨ n = m + 1) with h | h
  · exact htie h hm hn
  · exact htie h hn hm

theorem IsNearestEven.eq (h : IsNearestEven q m) : nearestEven q = m :=
  (isNearestEven_nearestEven q).unique h

theorem IsNearestEven.neg (h : IsNearestEven q m) : IsNearestEven (-q) (-m) := by
  have habs : |-q - (-m : ℤ)| = |q - m| := by
    push_cast
    rw [← abs_neg]
    ring_nf
  exact ⟨habs ▸ h.near, fun htie => by have := h.even (habs ▸ htie); omega⟩

theorem IsNearestEven.le (h : IsNearestEven q m) (hn : n ≤ q) : n ≤ m := by
  have hlt : (n : ℚ) < m + 1 := by linarith [(abs_le.mp h.near).2]
  exact Int.lt_add_one_iff.mp (by exact_mod_cast hlt)

theorem IsNearestEven.ge (h : IsNearestEven q m) (hn : q ≤ n) : m ≤ n := by
  have hlt : (m : ℚ) < n + 1 := by linarith [(abs_le.mp h.near).1]
  exact Int.lt_add_one_iff.mp (by exact_mod_cast hlt)

@[simp] theorem nearestEven_neg (q : ℚ) : nearestEven (-q) = -nearestEven q :=
  (isNearestEven_nearestEven q).neg.eq

/-- A whole number at less than a half is the nearest one. -/
theorem nearestEven_of_abs_lt (h : |q - m| < 1 / 2) : nearestEven q = m :=
  IsNearestEven.eq ⟨h.le, fun htie => absurd htie h.ne⟩

theorem roundDiv_eq (num : ℕ) {den : ℕ} (hden : 0 < den) :
    (roundDiv num den : ℤ) = nearestEven (num / den) := by
  have hden' : (0 : ℚ) < den := by exact_mod_cast hden
  have hfloor : ⌊(num / den : ℚ)⌋ = (num / den : ℕ) := Rat.floor_natCast_div_natCast num den
  have hfract : 2 * Int.fract (num / den : ℚ) = (2 * (num % den) : ℕ) / den := by
    rw [Int.fract_div_natCast_eq_div_natCast_mod]
    push_cast
    ring
  have hdown : 2 * Int.fract (num / den : ℚ) < 1 ↔ 2 * (num % den) < den := by
    rw [hfract, div_lt_one hden', Nat.cast_lt]
  have hup : 1 < 2 * Int.fract (num / den : ℚ) ↔ den < 2 * (num % den) := by
    rw [hfract, one_lt_div hden', Nat.cast_lt]
  simp only [nearestEven, roundDiv, hdown, hup, hfloor]
  split_ifs <;> push_cast <;> rfl

end Rollup.Number
