import Rollup.Proofs.Double.Sign
import Rollup.Sort.Key

/-! # Sort keys are numbers

Whatever a cell shows, a key read from it as a number or a time is not NaN. A numeral that is too
large reads as infinity, and what is no numeral or no date counts as zero.
-/

namespace Rollup

open Float.Model.UnpackedFloat (Sign)
open Number (sign? IsFinitePositive)

/-! ## Numerals -/

theorem Numeral.sign?_of_value? {n : Numeral} {x : Float} (h : n.value? = some x) :
    sign? x = some .positive := by
  unfold Numeral.value? at h
  split at h
  · cases h
  · cases h
    exact Number.sign?_ofDecimal _ _

theorem Numeral.sign?_of_read? {t : Text} {x : Float} (h : Numeral.read? t = some x) :
    sign? x = some .positive := by
  unfold Numeral.read? at h
  dsimp only at h
  split at h
  · exact Numeral.sign?_of_value? h
  · cases h

theorem Number.sign?_ne_none {x : Float} {s : Sign} (h : sign? x = some s) : sign? x ≠ none := by
  simp [h]

theorem Number.sign?_neg_ne_none {x : Float} {s : Sign} (h : sign? x = some s) :
    sign? (-x) ≠ none := by
  rw [sign?_neg, h]
  simp

theorem Number.sign?_of_read?_ne_none {t : Text} {x : Float} (h : Number.read? t = some x) :
    sign? x ≠ none := by
  unfold Number.read? at h
  split at h
  · obtain ⟨y, hy, rfl⟩ := Option.map_eq_some_iff.mp h
    exact sign?_neg_ne_none (Numeral.sign?_of_read? hy)
  · exact sign?_ne_none (Numeral.sign?_of_read? h)
  · exact sign?_ne_none (Numeral.sign?_of_read? h)

/-! ## Elapsed times -/

theorem Number.isFinitePositive_sixty : IsFinitePositive 60 :=
  ⟨_, _, _, by with_unfolding_all rfl⟩

theorem Number.isFinitePositive_secondsPerHour : IsFinitePositive 3600 :=
  ⟨_, _, _, by with_unfolding_all rfl⟩

theorem Number.sign?_zero : sign? 0 = some .positive := by with_unfolding_all rfl

theorem Duration.sign?_of_seconds? {t : Text} {x : Float} (h : Duration.seconds? t = some x) :
    sign? x = some .positive := by
  unfold Duration.seconds? at h
  obtain ⟨⟨whole, rest⟩, -, h⟩ := Option.bind_eq_some_iff.mp h
  dsimp only at h
  split at h
  · exact Numeral.sign?_of_value? h
  · split at h
    · exact Numeral.sign?_of_value? h
    · cases h
  · cases h

theorem Duration.sign?_of_unsigned? {t : Text} {x : Float} (h : Duration.unsigned? t = some x) :
    sign? x = some .positive := by
  unfold Duration.unsigned? at h
  obtain ⟨hours, hhours, h⟩ := Option.bind_eq_some_iff.mp h
  obtain ⟨⟨minuteDigits, rest⟩, -, h⟩ := Option.bind_eq_some_iff.mp h
  obtain ⟨minutes, hminutes, h⟩ := Option.bind_eq_some_iff.mp h
  have hsum : ∀ seconds, sign? seconds = some .positive →
      (if minutes ≥ 60 || seconds ≥ 60 then none
        else some (hours * 3600 + minutes * 60 + seconds)) = some x → sign? x = some .positive := by
    intro seconds hs h
    split at h
    · cases h
    · cases h
      refine Number.sign?_add (Number.sign?_add ?_ ?_) hs
      · rw [Number.sign?_mul Number.isFinitePositive_secondsPerHour]
        exact Numeral.sign?_of_value? hhours
      · rw [Number.sign?_mul Number.isFinitePositive_sixty]
        exact Numeral.sign?_of_value? hminutes
  dsimp only at h
  split at h
  · exact hsum 0 Number.sign?_zero h
  · obtain ⟨seconds, hseconds, h⟩ := Option.bind_eq_some_iff.mp h
    obtain ⟨u, -, hu⟩ := Option.bind_eq_some_iff.mp hseconds
    exact hsum seconds (Duration.sign?_of_seconds? hu) h

theorem Duration.sign?_of_read?_ne_none {t : Text} {x : Float} (h : Duration.read? t = some x) :
    sign? x ≠ none := by
  unfold Duration.read? at h
  split at h
  · obtain ⟨y, hy, rfl⟩ := Option.map_eq_some_iff.mp h
    exact Number.sign?_neg_ne_none (Duration.sign?_of_unsigned? hy)
  · exact Number.sign?_ne_none (Duration.sign?_of_unsigned? h)
  · exact Number.sign?_ne_none (Duration.sign?_of_unsigned? h)

/-! ## Dates -/

theorem Number.isFinitePositive_secondsPerDay : IsFinitePositive Moment.secondsPerDay :=
  ⟨_, _, _, by with_unfolding_all rfl⟩

theorem Number.isFinitePositive_thousand : IsFinitePositive 1000 :=
  ⟨_, _, _, by with_unfolding_all rfl⟩

theorem Moment.sign?_toDays_ne_none (m : Moment) : sign? m.toDays ≠ none := by
  rw [Moment.toDays, Number.sign?_div Number.isFinitePositive_secondsPerDay,
    Number.sign?_div Number.isFinitePositive_thousand]
  exact Number.sign?_ofInt_ne_none _

/-! ## Keys -/

theorem sign?_getD_zero_ne_none {o : Option Float} (h : ∀ x, o = some x → sign? x ≠ none) :
    sign? (o.getD 0) ≠ none := by
  cases o with
  | none => simp [Number.sign?_zero]
  | some x => exact h x rfl

theorem SortKey.sign?_extract_ne_none {k : SortKey} {cell : Text} {x : Float}
    (h : k.extract cell = .number x) : sign? x ≠ none := by
  unfold SortKey.extract at h
  cases k with
  | alphabetic => cases h
  | numeric =>
    cases h
    exact sign?_getD_zero_ne_none fun _ => Number.sign?_of_read?_ne_none
  | time =>
    dsimp only at h
    split at h
    · cases h
      rw [Number.sign?_mul Number.isFinitePositive_secondsPerDay]
      exact Moment.sign?_toDays_ne_none _
    · cases h
      exact sign?_getD_zero_ne_none fun _ => Duration.sign?_of_read?_ne_none

theorem SortKey.extract_not_isNaN {k : SortKey} {cell : Text} {x : Float}
    (h : k.extract cell = .number x) : x.isNaN = false := by
  rw [Bool.eq_false_iff, Ne, Number.isNaN_iff_sign?_eq_none]
  exact SortKey.sign?_extract_ne_none h

end Rollup
