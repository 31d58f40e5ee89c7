import Mathlib.Data.List.TakeWhile
import Mathlib.Tactic.Ring
import Rollup.Calendar.Timestamp
import Rollup.Proofs.Text.Class
import Rollup.Proofs.Text.Cut
import Rollup.Proofs.Text.Pieces
import Rollup.Proofs.Text.Trim

/-! # The texts of dates and times

A date is a year of four digits with a month and a day of one or two, a time of day has hours of one
or two digits and minutes and perhaps seconds of two. Between them may stand the name of the day.
The readers take these texts and no others.
-/

namespace Rollup

/-! ## Digits -/

theorem Text.digitsToNat_lt {ds : Text} (h : ∀ c ∈ ds, c.isDigit) :
    digitsToNat ds < 10 ^ ds.length := by
  have hrun (n : ℕ) : Nat.ofDigitChars 10 ds n < (n + 1) * 10 ^ ds.length := by
    induction ds generalizing n with
    | nil => simp
    | cons c ds ih =>
      obtain ⟨hc, hds⟩ := List.forall_mem_cons.mp h
      have hdigit : c.toNat - '0'.toNat ≤ 9 := Nat.sub_le_sub_right (Char.isDigit_iff_toNat.mp hc).2 _
      rw [Nat.ofDigitChars_cons, List.length_cons, pow_succ', ← mul_assoc]
      exact (ih hds _).trans_le (Nat.mul_le_mul_right _ (by omega))
  have hzero := hrun 0
  rwa [zero_add, one_mul] at hzero

namespace Timestamp

/-- Between `least` and `most` decimal digits. -/
structure IsDigits (least most : ℕ) (ds : Text) : Prop where
  digits : ∀ c ∈ ds, c.isDigit
  least_le : least ≤ ds.length
  le_most : ds.length ≤ most

section

variable {least most n : ℕ} {ds t rest : Text}

theorem isDigits_of_digits? (h : digits? least most t = some (n, rest)) :
    ∃ ds, IsDigits least most ds ∧ t = ds ++ rest ∧ n = Text.digitsToNat ds := by
  unfold digits? at h
  dsimp only at h
  split at h
  case isTrue hleast =>
    obtain ⟨rfl, rfl⟩ := Prod.mk.inj (Option.some.inj h)
    have hprefix : (t.take most).takeWhile Char.isDigit <+: t :=
      (List.takeWhile_prefix _).trans (List.take_prefix _ _)
    have hmost := (List.takeWhile_prefix Char.isDigit).length_le.trans (List.length_take_le most t)
    exact ⟨_, ⟨fun c => List.mem_takeWhile_imp, hleast, hmost⟩,
      (List.prefix_iff_eq_append.mp hprefix).symm, rfl⟩
  case isFalse => cases h

/-- As many digits are read as there are, up to the most. -/
theorem digits?_append (h : IsDigits least most ds)
    (hrest : ds.length < most → ∀ c ∈ rest.head?, c.isDigit = false) :
    digits? least most (ds ++ rest) = some (Text.digitsToNat ds, rest) := by
  have htake : ((ds ++ rest).take most).takeWhile Char.isDigit = ds := by
    rw [List.take_append, List.take_of_length_le h.le_most]
    refine Text.takeWhile_append h.digits fun c hc => ?_
    rw [List.head?_take] at hc
    split at hc
    case isTrue => cases hc
    case isFalse hlt => exact hrest (by omega) c hc
  unfold digits?
  rw [htake]
  dsimp only
  rw [if_pos h.least_le, List.drop_left]

theorem digits?_self (h : IsDigits least most ds) :
    digits? least most ds = some (Text.digitsToNat ds, []) := by
  have hend : digits? least most (ds ++ []) = _ := digits?_append h (by simp)
  rwa [List.append_nil] at hend

theorem isDigits_of_after? {c : Char}
    (h : (Text.after? [c] t).bind (digits? least most) = some (n, rest)) :
    ∃ ds, IsDigits least most ds ∧ t = c :: (ds ++ rest) ∧ n = Text.digitsToNat ds := by
  obtain ⟨u, hu, hdigits⟩ := Option.bind_eq_some_iff.mp h
  obtain ⟨ds, hds, rfl, rfl⟩ := isDigits_of_digits? hdigits
  exact ⟨ds, hds, Text.after?_eq_some_iff.mp hu, rfl⟩

theorem IsDigits.ne_nil (h : IsDigits least most ds) (hleast : 0 < least) : ds ≠ [] :=
  List.ne_nil_of_length_pos (hleast.trans_le h.least_le)

theorem IsDigits.isDigit_of_mem_head? (h : IsDigits least most ds) (hleast : 0 < least)
    (rest : Text) : ∀ c ∈ (ds ++ rest).head?, c.isDigit := by
  rw [List.head?_append_of_ne_nil _ (h.ne_nil hleast)]
  exact fun c hc => h.digits c (List.mem_of_mem_head? hc)

end

/-! ## Dates -/

inductive IsDate : Date → Text → Prop
  | parts {year month day : Text} (hyear : IsDigits 4 4 year) (hmonth : IsDigits 1 2 month)
      (hday : IsDigits 1 2 day) :
      IsDate ⟨Text.digitsToNat year, Text.digitsToNat month, Text.digitsToNat day⟩
        (year ++ '-' :: (month ++ '-' :: day))

theorem isDate_of_date? {t rest : Text} {date : Date} (h : date? t = some (date, rest)) :
    ∃ day, IsDate date day ∧ t = day ++ rest := by
  unfold date? at h
  obtain ⟨⟨y, afterYear⟩, hyear, h⟩ := Option.bind_eq_some_iff.mp h
  obtain ⟨⟨m, afterMonth⟩, hmonth, h⟩ := Option.bind_eq_some_iff.mp h
  obtain ⟨⟨d, afterDay⟩, hday, h⟩ := Option.bind_eq_some_iff.mp h
  cases h
  obtain ⟨year, hy, rfl, rfl⟩ := isDigits_of_digits? hyear
  obtain ⟨month, hm, rfl, rfl⟩ := isDigits_of_after? hmonth
  obtain ⟨day, hd, rfl, rfl⟩ := isDigits_of_after? hday
  exact ⟨_, .parts hy hm hd, by simp⟩

/-- A date starts with its year and a dash. -/
theorem exists_of_date? {t rest : Text} {date : Date} (h : date? t = some (date, rest)) :
    ∃ year after, IsDigits 4 4 year ∧ t = year ++ '-' :: after := by
  obtain ⟨day, hday, rfl⟩ := isDate_of_date? h
  cases hday with
  | parts hyear => exact ⟨_, _, hyear, by rw [List.append_assoc, List.cons_append]⟩

theorem date?_append {day rest : Text} {date : Date} (h : IsDate date day)
    (hrest : ∀ c ∈ rest.head?, c.isDigit = false) : date? (day ++ rest) = some (date, rest) := by
  cases h with
  | @parts year month day hyear hmonth hday =>
    have hdash (u : Text) : ∀ c ∈ ('-' :: u).head?, c.isDigit = false := by simp
    simp [date?, digits?_append hyear fun _ => hdash _, Text.after?,
      digits?_append hmonth fun _ => hdash _, digits?_append hday fun _ => hrest]

theorem IsDate.isDigit_of_mem_head? {day : Text} {date : Date} (h : IsDate date day) (rest : Text) :
    ∀ c ∈ (day ++ rest).head?, c.isDigit := by
  cases h with
  | parts hyear =>
    rw [List.append_assoc]
    exact hyear.isDigit_of_mem_head? (by decide) _

/-- A year of four digits is not before the year 0 and not after the year 9999. -/
theorem IsDate.year_bounds {day : Text} {date : Date} (h : IsDate date day) :
    0 ≤ date.year ∧ date.year ≤ 9999 := by
  cases h with
  | @parts year month day hyear hmonth hday =>
    have hlt := Text.digitsToNat_lt hyear.digits
    rw [Nat.le_antisymm hyear.le_most hyear.least_le] at hlt
    dsimp only
    omega

/-! ## Times of day -/

inductive IsTime : ℕ × ℕ × ℕ → Text → Prop
  | minutes {hh mm : Text} (hhours : IsDigits 1 2 hh) (hminutes : IsDigits 2 2 mm) :
      IsTime (Text.digitsToNat hh, Text.digitsToNat mm, 0) (hh ++ ':' :: mm)
  | seconds {hh mm ss : Text} (hhours : IsDigits 1 2 hh) (hminutes : IsDigits 2 2 mm)
      (hseconds : IsDigits 2 2 ss) :
      IsTime (Text.digitsToNat hh, Text.digitsToNat mm, Text.digitsToNat ss)
        (hh ++ ':' :: (mm ++ ':' :: ss))

theorem isTime_of_clock? {t : Text} {clock : ℕ × ℕ × ℕ} (h : clock? t = some clock) :
    IsTime clock t := by
  unfold clock? at h
  obtain ⟨⟨hours, afterHours⟩, hhours, h⟩ := Option.bind_eq_some_iff.mp h
  obtain ⟨⟨minutes, afterMinutes⟩, hminutes, h⟩ := Option.bind_eq_some_iff.mp h
  obtain ⟨hh, hhh, rfl, rfl⟩ := isDigits_of_digits? hhours
  obtain ⟨mm, hmm, rfl, rfl⟩ := isDigits_of_after? hminutes
  dsimp only at h
  split at h
  case h_1 =>
    cases h
    simpa using IsTime.minutes hhh hmm
  case h_2 =>
    obtain ⟨⟨seconds, afterSeconds⟩, hseconds, h⟩ := Option.bind_eq_some_iff.mp h
    obtain ⟨ss, hss, rfl, rfl⟩ := isDigits_of_after? hseconds
    dsimp only at h
    split at h
    case isTrue hend =>
      cases h
      subst hend
      simpa using IsTime.seconds hhh hmm hss
    case isFalse => cases h

theorem clock?_eq_some_iff {t : Text} {clock : ℕ × ℕ × ℕ} :
    clock? t = some clock ↔ IsTime clock t := by
  refine ⟨isTime_of_clock?, fun h => ?_⟩
  have hcolon (u : Text) : ∀ c ∈ (':' :: u).head?, c.isDigit = false := by simp
  cases h with
  | @minutes hh mm hhours hminutes =>
    simp [clock?, digits?_append hhours fun _ => hcolon _, Text.after?, digits?_self hminutes]
  | @seconds hh mm ss hhours hminutes hseconds =>
    simp [clock?, digits?_append hhours fun _ => hcolon _, Text.after?,
      digits?_append hminutes fun _ => hcolon _, digits?_self hseconds]

theorem IsTime.isDigit_of_mem_head? {t : Text} {clock : ℕ × ℕ × ℕ} (h : IsTime clock t) :
    ∀ c ∈ t.head?, c.isDigit := by
  cases h with
  | minutes hhours => exact hhours.isDigit_of_mem_head? (by decide) _
  | seconds hhours => exact hhours.isDigit_of_mem_head? (by decide) _

theorem IsTime.ne_nil {t : Text} {clock : ℕ × ℕ × ℕ} (h : IsTime clock t) : t ≠ [] := by
  cases h <;> simp

/-! ## What follows a date -/

/-- Nothing, or a time of day. -/
inductive IsEnd : Option (ℕ × ℕ × ℕ) → Text → Prop
  | nothing : IsEnd none []
  | time {clock : ℕ × ℕ × ℕ} {t : Text} (h : IsTime clock t) : IsEnd (some clock) t

/-- Letters and perhaps a dot. -/
inductive IsDayName : Text → Prop
  | plain {letters : Text} (hne : letters ≠ []) (h : ∀ c ∈ letters, Text.isLetter c) :
      IsDayName letters
  | dotted {letters : Text} (hne : letters ≠ []) (h : ∀ c ∈ letters, Text.isLetter c) :
      IsDayName (letters ++ ['.'])

inductive IsTail : Tail → Text → Prop
  | plain {clock : Option (ℕ × ℕ × ℕ)} {t : Text} (h : IsEnd clock t) : IsTail ⟨false, clock⟩ t
  | named {name white t : Text} {clock : Option (ℕ × ℕ × ℕ)} (hname : IsDayName name)
      (hwhite : Text.isBlank white) (h : IsEnd clock t) :
      IsTail ⟨true, clock⟩ (name ++ (white ++ t))

section

variable {clock : Option (ℕ × ℕ × ℕ)} {t white name : Text} {tail : Tail}

theorem IsEnd.isDigit_of_mem_head? (h : IsEnd clock t) : ∀ c ∈ t.head?, c.isDigit := by
  cases h with
  | nothing => simp
  | time h => exact h.isDigit_of_mem_head?

theorem tailClock?_eq_some_iff {dayName : Bool} :
    tailClock? dayName t = some tail ↔ ∃ clock, IsEnd clock t ∧ tail = ⟨dayName, clock⟩ := by
  unfold tailClock?
  split
  case isTrue hnil =>
    subst hnil
    constructor
    · rintro ⟨⟩
      exact ⟨none, .nothing, rfl⟩
    · rintro ⟨clock, h, rfl⟩
      cases h with
      | nothing => rfl
      | time h => exact absurd rfl h.ne_nil
  case isFalse hne =>
    rw [Option.map_eq_some_iff]
    constructor
    · rintro ⟨clock, h, rfl⟩
      exact ⟨some clock, .time (clock?_eq_some_iff.mp h), rfl⟩
    · rintro ⟨clock, h, rfl⟩
      cases h with
      | nothing => exact absurd rfl hne
      | time h => exact ⟨_, clock?_eq_some_iff.mpr h, rfl⟩

theorem isTail_of_tail? (h : tail? t = some tail) : IsTail tail t := by
  have hsplit : t = t.takeWhile Text.isLetter ++ t.dropWhile Text.isLetter :=
    List.takeWhile_append_dropWhile.symm
  have hletters : ∀ c ∈ t.takeWhile Text.isLetter, Text.isLetter c :=
    fun c => List.mem_takeWhile_imp
  unfold tail? at h
  dsimp only at h
  rw [Text.drop_length_takeWhile] at h
  generalize t.takeWhile Text.isLetter = letters at *
  generalize t.dropWhile Text.isLetter = rest at *
  subst hsplit
  split at h
  case isTrue hnil =>
    obtain ⟨clock, hend, rfl⟩ := tailClock?_eq_some_iff.mp h
    exact .plain hend
  case isFalse hne =>
    obtain ⟨clock, hend, rfl⟩ := tailClock?_eq_some_iff.mp h
    have hwhite (u : Text) : ∃ white, Text.isBlank white ∧ u = white ++ Text.trimStart u :=
      ⟨_, Text.isBlank_iff.mpr fun c => List.mem_takeWhile_imp,
        (List.takeWhile_append_dropWhile (p := Text.isWhite)).symm⟩
    cases hdot : Text.after? ['.'] rest with
    | none =>
      rw [hdot, Option.getD_none] at hend
      obtain ⟨white, hblank, heq⟩ := hwhite rest
      rw [heq]
      exact .named (.plain hne hletters) hblank hend
    | some u =>
      rw [hdot, Option.getD_some] at hend
      obtain ⟨white, hblank, heq⟩ := hwhite u
      rw [Text.after?_eq_some_iff.mp hdot, ← List.append_assoc, heq]
      exact .named (.dotted hne hletters) hblank hend

/-- What follows a day name starts with white space or a digit. -/
theorem isWhite_or_isDigit (hwhite : Text.isBlank white) (h : IsEnd clock t) :
    ∀ c ∈ (white ++ t).head?, Text.isWhite c ∨ c.isDigit := by
  cases white with
  | nil => exact fun c hc => .inr (h.isDigit_of_mem_head? c hc)
  | cons d white =>
    rintro c ⟨⟩
    exact .inl (Text.isBlank_iff.mp hwhite d List.mem_cons_self)

theorem not_isLetter_of_white_or_digit {c : Char} (h : Text.isWhite c ∨ c.isDigit) :
    Text.isLetter c = false := by
  rw [← Bool.not_eq_true]
  intro hletter
  rcases h with h | h
  · simp [Text.not_isWhite_of_isLetter hletter] at h
  · simp [Text.not_isDigit_of_isLetter hletter] at h

theorem tail?_eq_some_iff : tail? t = some tail ↔ IsTail tail t := by
  refine ⟨isTail_of_tail?, fun h => ?_⟩
  cases h with
  | @plain clock _ h =>
    have hletters : t.takeWhile Text.isLetter = [] :=
      Text.takeWhile_append (t := []) (by simp)
        fun c hc => not_isLetter_of_white_or_digit (.inr (h.isDigit_of_mem_head? c hc))
    unfold tail?
    rw [hletters]
    exact tailClock?_eq_some_iff.mpr ⟨clock, h, rfl⟩
  | @named name white u clock hname hwhite h =>
    have hhead := isWhite_or_isDigit hwhite h
    have hend : tailClock? true (Text.trimStart (white ++ u)) = some ⟨true, clock⟩ := by
      have htrim : Text.trimStart (white ++ u) = u :=
        Text.dropWhile_append (Text.isBlank_iff.mp hwhite) fun c hc =>
          Text.isWhite_of_isDigit (h.isDigit_of_mem_head? c hc)
      rw [htrim]
      exact tailClock?_eq_some_iff.mpr ⟨clock, h, rfl⟩
    unfold tail?
    cases hname with
    | plain hne hletters =>
      have hnone : Text.after? ['.'] (white ++ u) = none := by
        rw [Option.eq_none_iff_forall_ne_some]
        intro v hv
        have hdot := hhead '.' (by rw [Text.after?_eq_some_iff.mp hv]; rfl)
        revert hdot
        decide
      have hnot : ∀ c ∈ (white ++ u).head?, Text.isLetter c = false :=
        fun c hc => not_isLetter_of_white_or_digit (hhead c hc)
      rw [Text.takeWhile_append hletters hnot]
      dsimp only
      rw [if_neg hne, List.drop_left, hnone]
      exact hend
    | @dotted letters hne hletters =>
      have hdot : ∀ c ∈ ('.' :: (white ++ u)).head?, Text.isLetter c = false := by
        rintro c ⟨⟩
        decide
      rw [List.append_assoc, List.singleton_append, Text.takeWhile_append hletters hdot]
      dsimp only
      rw [if_neg hne, List.drop_left]
      exact hend

end

end Timestamp

end Rollup
