import Mathlib.Data.Nat.Notation
import Rollup.Text.Class

/-! # Characters of different classes

Letters are no digits and no white space. The classes are ranges of code points, so that this is
seen from the ranges alone.
-/

namespace Rollup.Text

variable {c : Char}

theorem exists_of_inRanges {ranges : List (ℕ × ℕ)} {n : ℕ} (h : inRanges ranges n) :
    ∃ r ∈ ranges, r.1 ≤ n ∧ n ≤ r.2 := by
  induction ranges with
  | nil => cases h
  | cons r ranges ih =>
    rw [inRanges] at h
    split at h
    · cases h
    · split at h
      · exact ⟨r, List.mem_cons_self, Nat.not_lt.mp ‹_›, ‹_›⟩
      · obtain ⟨r', hr', hn⟩ := ih h
        exact ⟨r', List.mem_cons_of_mem _ hr', hn⟩

/-- No white space lies in ranges that leave out its code points. -/
theorem not_isWhite_of_inRanges {ranges : List (ℕ × ℕ)} (hall : ∀ r ∈ whiteRanges,
    ∀ n ∈ List.range' r.1 (r.2 + 1 - r.1), inRanges ranges n = false)
    (h : inRanges ranges c.toNat) : isWhite c = false := by
  rw [← Bool.not_eq_true]
  intro hwhite
  obtain ⟨r, hr, hfirst, hlast⟩ := exists_of_inRanges hwhite
  rw [hall r hr c.toNat (List.mem_range'_1.mpr ⟨hfirst, by omega⟩)] at h
  cases h

/-- No digit lies in ranges that start behind the digits. -/
theorem not_isDigit_of_inRanges {first last : ℕ} {ranges : List (ℕ × ℕ)} (hfirst : 57 < first)
    (h : inRanges ((first, last) :: ranges) c.toNat) : c.isDigit = false := by
  rw [← Bool.not_eq_true]
  intro hdigit
  simp only [Char.isDigit, Bool.and_eq_true, decide_eq_true_eq] at hdigit
  have hlast : c.toNat ≤ 57 := UInt32.le_iff_toNat_le.mp hdigit.2
  rw [inRanges, if_pos (Nat.lt_of_le_of_lt hlast hfirst)] at h
  cases h

theorem not_isWhite_of_isAlphabetic (h : isAlphabetic c) : isWhite c = false :=
  not_isWhite_of_inRanges (by decide +kernel) h

theorem not_isWhite_of_isNumeric (h : isNumeric c) : isWhite c = false :=
  not_isWhite_of_inRanges (by decide +kernel) h

theorem not_isWhite_of_isLetter (h : isLetter c) : isWhite c = false :=
  not_isWhite_of_inRanges (by decide +kernel) h

theorem not_isDigit_of_isAlphabetic (h : isAlphabetic c) : c.isDigit = false :=
  not_isDigit_of_inRanges (by decide) h

theorem not_isDigit_of_isLetter (h : isLetter c) : c.isDigit = false :=
  not_isDigit_of_inRanges (by decide) h

theorem ne_of_isAlphabetic {d : Char} (h : isAlphabetic c) (hd : isAlphabetic d = false) : c ≠ d := by
  rintro rfl
  rw [hd] at h
  cases h

end Rollup.Text
