import Rollup.Proofs.Calendar.Reading
import Rollup.Proofs.Double.Integers
import Rollup.Proofs.Number.Numeral
import Rollup.Proofs.Sort.Rows
import Rollup.Proofs.Text.Cut
import Rollup.Proofs.Text.Trim

/-! # Elapsed times read back

Whole seconds are written as hours, minutes and seconds, with as many digits of the hours as they
take. The text reads as no number and no date, and as the same elapsed time, so that rows are sorted
by the times that they show.
-/

namespace Rollup

open Number

/-! ## The text of an elapsed time -/

/-- Hours, minutes and seconds. -/
def Duration.clock (n : ℕ) : Text :=
  Text.ofNatPadded 2 (n / 3600) ++
    ':' :: (Text.ofNatPadded 2 (n / 60 % 60) ++ ':' :: Text.ofNatPadded 2 (n % 60))

theorem clockText_ofInt {s : ℤ} (hs : s.natAbs < 2 ^ 53) :
    clockText true (Float.ofInt s) = signText (s < 0) ++ Duration.clock s.natAbs := by
  have hinteger := isInteger_ofInt hs
  have hsign : decide (Float.ofInt s < 0) = decide (s < 0) :=
    decide_eq_decide.mpr (hinteger.lt_iff isInteger_zero)
  simp only [clockText, hsign, hinteger.roundedSize hs, Duration.clock, List.append_assoc,
    List.cons_append, if_true]

namespace Duration

theorem isDigit_of_mem_head?_clock {n : ℕ} {c : Char} (h : c ∈ (clock n).head?) : c.isDigit := by
  have hdecimal := isDecimal_ofNatPadded 2 (n / 3600)
  rw [clock, List.head?_append_of_ne_nil _ hdecimal.wholeNe] at h
  exact hdecimal.wholeDigits c (List.mem_of_mem_head? h)

theorem isDigit_or_colon_of_mem_clock {n : ℕ} {c : Char} (h : c ∈ clock n) : c.isDigit ∨ c = ':' := by
  simp only [clock, List.mem_append, List.mem_cons] at h
  rcases h with h | rfl | h | rfl | h
  · exact .inl (isDigit_of_mem_ofNatPadded h)
  · exact .inr rfl
  · exact .inl (isDigit_of_mem_ofNatPadded h)
  · exact .inr rfl
  · exact .inl (isDigit_of_mem_ofNatPadded h)

/-! ## Reading it as an elapsed time -/

theorem twoDigits?_ofNatPadded {n : ℕ} (h : n < 100) (rest : Text) :
    twoDigits? (Text.ofNatPadded 2 n ++ rest) = some (Text.ofNatPadded 2 n, rest) := by
  obtain ⟨c, d, hcd⟩ := List.length_eq_two.mp (length_ofNatPadded (by decide) h)
  have hdigits : ∀ e ∈ [c, d], e.isDigit := fun e he => isDigit_of_mem_ofNatPadded (hcd ▸ he)
  simp [hcd, twoDigits?, hdigits]

theorem seconds?_ofNatPadded {n : ℕ} (h : n < 60) :
    seconds? (Text.ofNatPadded 2 n) = some (Float.ofNat n) := by
  have htwo := twoDigits?_ofNatPadded (n := n) (by omega) []
  rw [List.append_nil] at htwo
  rw [seconds?, htwo]
  exact value?_ofNatPadded 2 (by omega)

/-- Hours, minutes and seconds add up without rounding. -/
theorem isInteger_sum {n : ℕ} (hn : n < 2 ^ 53) :
    IsInteger n (Float.ofNat (n / 3600) * 3600 + Float.ofNat (n / 60 % 60) * 60 +
      Float.ofNat (n % 60)) := by
  have hhours := (isInteger_ofNat (n := n / 3600) (by omega)).mul
    (isInteger_literal 3600 (by decide)) (by omega)
  have hminutes := (isInteger_ofNat (n := n / 60 % 60) (by omega)).mul
    (isInteger_literal 60 (by decide)) (by omega)
  have hseconds := isInteger_ofNat (n := n % 60) (by omega)
  have hsum := (hhours.add hminutes (by omega)).add hseconds (by omega)
  have hvalue : ((n / 3600 : ℕ) * (3600 : ℕ) + (n / 60 % 60 : ℕ) * (60 : ℕ) + (n % 60 : ℕ) : ℤ) = n := by
    omega
  rwa [hvalue] at hsum

theorem unsigned?_clock {n : ℕ} (hn : n < 2 ^ 53) : unsigned? (clock n) = some (Float.ofNat n) := by
  have hdecimal := isDecimal_ofNatPadded 2 (n / 3600)
  obtain ⟨rest, hrest⟩ : ∃ rest, Text.ofNatPadded 2 (n / 60 % 60) ++
    ':' :: Text.ofNatPadded 2 (n % 60) = rest := ⟨_, rfl⟩
  have htake : (clock n).takeWhile Char.isDigit = Text.ofNatPadded 2 (n / 3600) :=
    Text.takeWhile_append hdecimal.wholeDigits (by simp)
  have hdrop : (clock n).drop (Text.ofNatPadded 2 (n / 3600)).length = ':' :: rest := by
    rw [clock, List.drop_left, hrest]
  have hsmall (k : ℕ) : ¬ Float.ofNat (k % 60) ≥ 60 := by
    have hle := (isInteger_literal 60 (by decide)).le_iff (isInteger_ofNat (n := k % 60) (by omega))
    rw [ge_iff_le, hle]
    omega
  have hsum : unsigned? (clock n) = some (Float.ofNat (n / 3600) * 3600 +
      Float.ofNat (n / 60 % 60) * 60 + Float.ofNat (n % 60)) := by
    have hhours := value?_ofNatPadded 2 (n := n / 3600) (by omega)
    have hvalue := value?_ofNatPadded 2 (n := n / 60 % 60) (by omega)
    have htwo := twoDigits?_ofNatPadded (n := n / 60 % 60) (by omega) (':' :: Text.ofNatPadded 2 (n % 60))
    rw [hrest] at htwo
    have hseconds := seconds?_ofNatPadded (n := n % 60) (by omega)
    simp [unsigned?, htake, hdrop, hhours, Text.after?, htwo, hvalue, hseconds, hsmall]
  rw [hsum, (isInteger_sum hn).eq_ofNat hn (sign?_of_unsigned? hsum)]

theorem read?_of_isDigit {t : Text} (h : ∀ c ∈ t.head?, c.isDigit) : read? t = unsigned? t := by
  unfold read?
  split
  · exact absurd (h '-' rfl) (by decide)
  · exact absurd (h '+' rfl) (by decide)
  · rfl

theorem read?_clockText {s : ℤ} (hs : s.natAbs < 2 ^ 53) :
    read? (clockText true (Float.ofInt s)) = some (Float.ofInt s) := by
  rw [clockText_ofInt hs]
  cases s with
  | ofNat n => exact (read?_of_isDigit fun _ => isDigit_of_mem_head?_clock).trans (unsigned?_clock hs)
  | negSucc n =>
    rw [decide_eq_true (Int.negSucc_lt_zero n)]
    exact congrArg (Option.map (- ·)) (unsigned?_clock hs)

/-! ## Reading it as anything else -/

section

variable {negative : Bool} {n : ℕ} {c : Char}

theorem mem_signed_clock (h : c ∈ signText negative ++ clock n) : c = '-' ∨ c.isDigit ∨ c = ':' := by
  rcases List.mem_append.mp h with h | h
  · cases negative
    · cases h
    · exact .inl (List.mem_singleton.mp h)
  · exact .inr (isDigit_or_colon_of_mem_clock h)

theorem dash_not_mem_clock : '-' ∉ clock n := by
  intro h
  rcases isDigit_or_colon_of_mem_clock h with h | h <;> exact absurd h (by decide)

theorem trim_clock : Text.trim (signText negative ++ clock n) = signText negative ++ clock n := by
  have hwhite (c : Char) (h : c ∈ signText negative ++ clock n) : ¬ Text.isWhite c := by
    rcases mem_signed_clock h with rfl | h | rfl
    · decide
    · exact Bool.eq_false_iff.mp (Text.isWhite_of_isDigit h)
    · decide
  exact Text.trim_eq_self (fun c hc => hwhite c (List.mem_of_mem_head? hc))
    fun c hc => hwhite c (List.mem_of_getLast? hc)

theorem numeral_read?_clock : Numeral.read? (clock n) = none :=
  Numeral.read?_append_eq_none (isDecimal_ofNatPadded 2 (n / 3600)).wholeDigits (by decide) _

theorem number_read?_clock : Number.read? (signText negative ++ clock n) = none := by
  cases negative with
  | true =>
    have hminus : Number.read? ('-' :: clock n) = (Numeral.read? (clock n)).map (- ·) := rfl
    rw [numeral_read?_clock] at hminus
    exact hminus
  | false =>
    have hhead (c : Char) (hc : c ∈ (clock n).head?) : c ≠ '+' ∧ c ≠ '-' := by
      have hdigit := isDigit_of_mem_head?_clock hc
      constructor <;> rintro rfl <;> exact absurd hdigit (by decide)
    rw [Option.eq_none_iff_forall_ne_some]
    intro x hx
    have hread := Number.numeral_read?_eq_some_iff.mpr ⟨hhead, hx⟩
    rw [numeral_read?_clock] at hread
    cases hread

/-- The only dash is the sign in front, and no date starts with one. -/
theorem timestamp_read?_clock : Timestamp.read? (signText negative ++ clock n) = none := by
  apply Timestamp.read?_eq_none
  · intro c hc
    rcases mem_signed_clock (List.mem_of_mem_head? hc) with rfl | h | rfl
    · decide
    · constructor <;> rintro rfl <;> exact absurd h (by decide)
    · decide
  · rw [trim_clock]
    cases negative with
    | true => exact dash_not_mem_clock
    | false => exact fun h => dash_not_mem_clock (List.mem_of_mem_tail h)

end

end Duration

/-! ## Cells that show elapsed times -/

namespace Value

section

variable {s : ℤ} (hs : s.natAbs < 2 ^ 53)

include hs

theorem trim_display_duration :
    Text.trim (duration (Float.ofInt s)).display = clockText true (Float.ofInt s) := by
  have hdisplay : (duration (Float.ofInt s)).display = clockText true (Float.ofInt s) := rfl
  rw [hdisplay, clockText_ofInt hs, Duration.trim_clock]

theorem recognize_clockText :
    recognize (clockText true (Float.ofInt s)) = duration (Float.ofInt s) := by
  have hread := Duration.read?_clockText hs
  rw [clockText_ofInt hs] at hread ⊢
  rw [recognize, Duration.number_read?_clock, Duration.timestamp_read?_clock, hread]

theorem ofCell_display_duration :
    ofCell .plain (duration (Float.ofInt s)).display = duration (Float.ofInt s) := by
  have hne : clockText true (Float.ofInt s) ≠ [] := by simp [clockText_ofInt hs, Duration.clock]
  rw [ofCell, trim_display_duration hs, if_neg hne, recognize_clockText hs]
  rfl

theorem extract_display_duration :
    SortKey.time.extract (duration (Float.ofInt s)).display = .number (Float.ofInt s) := by
  have hread := Duration.read?_clockText hs
  rw [SortKey.extract, trim_display_duration hs]
  rw [clockText_ofInt hs] at hread ⊢
  rw [Duration.timestamp_read?_clock, hread]
  rfl

end

end Value

/-! ## Sorting them -/

/-- Rows whose keys are whole numbers are sorted as these numbers are ordered. -/
theorem Directive.pairwise_sortRows_integers {d : Directive} {rows : List (List Text)}
    {value : List Text → ℤ}
    (hkeys : ∀ row ∈ rows, ∃ x, d.keyOf row = .number x ∧ IsInteger (value row) x) :
    (sortRows [d] rows).Pairwise fun a b =>
      if d.descending then value b ≤ value a else value a ≤ value b := by
  refine (pairwise_sortRows [d] rows).imp_of_mem fun {a b} ha hb hle => ?_
  obtain ⟨x, hx, hxinteger⟩ := hkeys a ((sortRows_perm [d] rows).mem_iff.mp ha)
  obtain ⟨y, hy, hyinteger⟩ := hkeys b ((sortRows_perm [d] rows).mem_iff.mp hb)
  have hcompare : (d.keyOf a).compare (d.keyOf b) =
      Ord.compare (value a) (value b) := by
    rw [hx, hy, SortValue.compare, hxinteger.order?_eq hyinteger, Option.getD_some]
  have horder : order [d] a b = d.rowCompare a b := Ordering.then_eq
  rw [horder, rowCompare, Directive.compare, hcompare] at hle
  split at hle
  case isTrue hdescending =>
    rw [Ordering.isLE_swap, Std.isGE_compare] at hle
    rwa [if_pos hdescending]
  case isFalse hascending =>
    rw [Std.isLE_compare] at hle
    rwa [if_neg hascending]

/-- The text of an elapsed time of whole seconds is read back as that time, also for sorting. So
rows that show such times in a column are sorted by them. -/
theorem Value.display_duration_reads_back :
    (∀ s : ℤ, s.natAbs < 2 ^ 53 →
      ofCell .plain (duration (Float.ofInt s)).display = duration (Float.ofInt s) ∧
        SortKey.time.extract (duration (Float.ofInt s)).display = .number (Float.ofInt s)) ∧
      ∀ (d : Directive) (rows : List (List Text)) (seconds : List Text → ℤ), d.key = .time →
        (∀ row ∈ rows, (seconds row).natAbs < 2 ^ 53 ∧
          row.getD d.column [] = (duration (Float.ofInt (seconds row))).display) →
        (Directive.sortRows [d] rows).Perm rows ∧
          (Directive.sortRows [d] rows).Pairwise fun a b =>
            if d.descending then seconds b ≤ seconds a else seconds a ≤ seconds b := by
  refine ⟨fun s hs => ⟨ofCell_display_duration hs, extract_display_duration hs⟩, ?_⟩
  intro d rows seconds hkey hrows
  refine ⟨Directive.sortRows_perm [d] rows, Directive.pairwise_sortRows_integers fun row hrow => ?_⟩
  obtain ⟨hsmall, hcell⟩ := hrows row hrow
  refine ⟨_, ?_, isInteger_ofInt hsmall⟩
  rw [Directive.keyOf, hkey, hcell, extract_display_duration hsmall]

/-- A day and an hour, and a little less than nothing. -/
theorem Value.display_duration_reads_back_both_signs :
    let rows : List (List Text) := [["25:01:01".toList], ["-00:00:01".toList]]
    let seconds (row : List Text) : ℤ := if row = ["25:01:01".toList] then 90061 else -1
    (∀ row ∈ rows, (seconds row).natAbs < 2 ^ 53 ∧
      row.getD 0 [] = (duration (Float.ofInt (seconds row))).display) ∧
      ofCell .plain "-00:00:01".toList = duration (Float.ofInt (-1)) ∧
      (Directive.sortRows [⟨0, .time, false, none⟩] rows).Pairwise fun a b =>
        seconds a ≤ seconds b := by
  intro rows seconds
  have hrows : ∀ row ∈ rows, (seconds row).natAbs < 2 ^ 53 ∧
      row.getD 0 [] = (duration (Float.ofInt (seconds row))).display := by decide +kernel
  have hdisplay : "-00:00:01".toList = (duration (Float.ofInt (-1))).display := by decide +kernel
  refine ⟨hrows, ?_, ?_⟩
  · rw [hdisplay]
    exact (display_duration_reads_back.1 (-1) (by decide)).1
  · exact (display_duration_reads_back.2 ⟨0, .time, false, none⟩ rows seconds rfl hrows).2

end Rollup
