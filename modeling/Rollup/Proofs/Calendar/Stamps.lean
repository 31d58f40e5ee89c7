import Rollup.Proofs.Calendar.Reading

/-! # Which texts are timestamps

Between a date and what follows it stand blanks or one letter `T`. The reader takes every run of
blanks and `T`s there, also at the end of the text, and these are the only other texts it takes.
-/

namespace Rollup.Timestamp

/-! ## Gaps -/

/-- Blanks or one `T`, and something after them. -/
def IsGap (separators rest : Text) : Prop :=
  rest ≠ [] ∧ (separators ≠ [] ∧ (∀ c ∈ separators, c = ' ') ∨ separators = ['T'])

/-- A `T` among other separators or with nothing after it. -/
def IsStray (separators rest : Text) : Prop :=
  IsRun separators rest ∧ 'T' ∈ separators ∧ (separators ≠ ['T'] ∨ rest = [])

section

variable {gap gap' : Text → Text → Prop} {bracketed : Bool} {date : Date}
  {clock : Option (ℕ × ℕ × ℕ)} {separators rest t : Text}

theorem IsGap.isRun (h : IsGap separators rest) : IsRun separators rest := by
  obtain ⟨-, ⟨hne, hblank⟩ | rfl⟩ := h
  · exact ⟨hne, fun c hc => isSeparator_iff.mpr (.inl (hblank c hc))⟩
  · exact ⟨List.cons_ne_nil _ _, by simp [isSeparator]⟩

/-- Only blanks at the end of a text are separators of neither kind. -/
theorem IsRun.isGap_or_isStray (h : IsRun separators rest) (hlast : rest = [] → 'T' ∈ separators) :
    IsGap separators rest ∨ IsStray separators rest := by
  by_cases hT : 'T' ∈ separators
  · by_cases hstray : separators ≠ ['T'] ∨ rest = []
    · exact .inr ⟨h, hT, hstray⟩
    · obtain ⟨hone, hne⟩ := not_or.mp hstray
      exact .inl ⟨hne, .inr (not_not.mp hone)⟩
  · refine .inl ⟨fun hnil => hT (hlast hnil), .inl ⟨h.1, fun c hc => ?_⟩⟩
    refine (isSeparator_iff.mp (h.2 c hc)).resolve_right ?_
    rintro rfl
    exact hT hc

theorem IsWritten.mono (h : IsWritten gap bracketed date clock t)
    (hle : ∀ separators rest, gap separators rest → gap' separators rest) :
    IsWritten gap' bracketed date clock t := by
  cases h with
  | alone hday => exact .alone hday
  | followed hday hgap htail hname => exact .followed hday (hle _ _ hgap) htail hname

/-- In a text without outer white space no blanks are last. -/
theorem isWritten_isRun_iff (htrim : Text.trim t = t) :
    IsWritten IsRun bracketed date clock t ↔
      IsWritten IsGap bracketed date clock t ∨ IsWritten IsStray bracketed date clock t := by
  constructor
  · intro h
    cases h with
    | alone hday => exact .inl (.alone hday)
    | @followed day separators rest tail hday hrun htail hname =>
      have hlast : rest = [] → 'T' ∈ separators := by
        rintro rfl
        obtain ⟨before, last, rfl⟩ := (List.eq_nil_or_concat' separators).resolve_left hrun.1
        have hnot : ¬ Text.isWhite last :=
          Text.not_isWhite_of_mem_getLast?_trim (t := day ++ (before ++ [last] ++ [])) (by
            rw [htrim]
            simp)
        rcases isSeparator_iff.mp (hrun.2 last (by simp)) with rfl | rfl
        · exact absurd (by decide) hnot
        · simp
      rcases hrun.isGap_or_isStray hlast with hgap | hstray
      · exact .inl (.followed hday hgap htail hname)
      · exact .inr (.followed hday hstray htail hname)
  · rintro (h | h)
    · exact h.mono fun _ _ => IsGap.isRun
    · exact h.mono fun _ _ hstray => hstray.1

end

/-! ## Brackets -/

/-- A date as it stands in a cell, plain or in brackets. -/
inductive IsStamp (gap : Text → Text → Prop) (date : Date) (clock : Option (ℕ × ℕ × ℕ)) :
    Text → Prop
  | plain {t : Text} (h : IsWritten gap false date clock t) : IsStamp gap date clock t
  | active {inner : Text} (h : IsWritten gap true date clock (Text.trim inner)) :
      IsStamp gap date clock ('<' :: (inner ++ ['>']))
  | inactive {inner : Text} (h : IsWritten gap true date clock (Text.trim inner)) :
      IsStamp gap date clock ('[' :: (inner ++ [']']))

section

variable {gap gap' : Text → Text → Prop} {date : Date} {clock : Option (ℕ × ℕ × ℕ)} {t inner : Text}
  {stamp : Timestamp}

/-- A plain date starts with a digit. -/
theorem IsWritten.unbracket?_eq_none (h : IsWritten gap false date clock t) :
    unbracket? t = none := by
  have hdigit : ∀ c ∈ t.head?, c.isDigit := by
    cases h with
    | alone hday => simpa using hday.isDigit_of_mem_head? []
    | followed hday => exact hday.isDigit_of_mem_head? _
  rw [Option.eq_none_iff_forall_ne_some]
  intro inner hinner
  rcases unbracket?_eq_some_iff.mp hinner with rfl | rfl
  · exact absurd (hdigit '<' rfl) (by decide)
  · exact absurd (hdigit '[' rfl) (by decide)

theorem IsStamp.mono (h : IsStamp gap date clock t)
    (hle : ∀ separators rest, gap separators rest → gap' separators rest) :
    IsStamp gap' date clock t := by
  cases h with
  | plain h => exact .plain (h.mono hle)
  | active h => exact .active (h.mono hle)
  | inactive h => exact .inactive (h.mono hle)

theorem isStamp_isRun_iff (htrim : Text.trim t = t) :
    IsStamp IsRun date clock t ↔ IsStamp IsGap date clock t ∨ IsStamp IsStray date clock t := by
  constructor
  · intro h
    cases h with
    | plain h => exact ((isWritten_isRun_iff htrim).mp h).imp .plain .plain
    | active h => exact ((isWritten_isRun_iff (Text.trim_trim _)).mp h).imp .active .active
    | inactive h => exact ((isWritten_isRun_iff (Text.trim_trim _)).mp h).imp .inactive .inactive
  · rintro (h | h)
    · exact h.mono fun _ _ => IsGap.isRun
    · exact h.mono fun _ _ hstray => hstray.1

/-- The reader takes the texts with any separators, and gives the moment that they name. -/
theorem read?_eq_some_iff (htrim : Text.trim t = t) :
    read? t = some stamp ↔ ∃ date clock, IsStamp IsRun date clock t ∧ stamp.Denotes date clock := by
  constructor
  · intro h
    unfold read? at h
    split at h
    case h_1 inner hinner =>
      obtain ⟨date, clock, hwritten, hdenotes⟩ := readPlain?_eq_some_iff.mp h
      refine ⟨date, clock, ?_, hdenotes⟩
      rcases unbracket?_eq_some_iff.mp hinner with rfl | rfl
      · exact .active hwritten
      · exact .inactive hwritten
    case h_2 =>
      rw [htrim] at h
      obtain ⟨date, clock, hwritten, hdenotes⟩ := readPlain?_eq_some_iff.mp h
      exact ⟨date, clock, .plain hwritten, hdenotes⟩
  · rintro ⟨date, clock, hstamp, hdenotes⟩
    have hbrackets {inner : Text} (hinner : unbracket? t = some inner)
        (hwritten : IsWritten IsRun true date clock (Text.trim inner)) : read? t = some stamp := by
      rw [read?, hinner]
      exact readPlain?_eq_some_iff.mpr ⟨date, clock, hwritten, hdenotes⟩
    cases hstamp with
    | plain h =>
      rw [read?, h.unbracket?_eq_none, htrim]
      exact readPlain?_eq_some_iff.mpr ⟨date, clock, h, hdenotes⟩
    | active h => exact hbrackets (unbracket?_eq_some_iff.mpr (.inl rfl)) h
    | inactive h => exact hbrackets (unbracket?_eq_some_iff.mpr (.inr rfl)) h

theorem exists_denotes_of_isStamp (hstamp : IsStamp gap date clock t) (hreal : IsReal date clock) :
    ∃ stamp : Timestamp, stamp.Denotes date clock := by
  cases hstamp with
  | plain h => exact exists_denotes h hreal
  | active h => exact exists_denotes h hreal
  | inactive h => exact exists_denotes h hreal

/-! ## Letters -/

theorem IsDigits.isLetter_eq_false {least most : ℕ} (h : IsDigits least most t) :
    ∀ c ∈ t, Text.isLetter c = false :=
  fun c hc => not_isLetter_of_white_or_digit (.inr (h.digits c hc))

theorem IsDate.isLetter_eq_false (h : IsDate date t) : ∀ c ∈ t, Text.isLetter c = false := by
  cases h with
  | parts hyear hmonth hday =>
    simp only [List.mem_append, List.mem_cons]
    rintro c (hc | rfl | hc | rfl | hc)
    · exact hyear.isLetter_eq_false c hc
    · decide
    · exact hmonth.isLetter_eq_false c hc
    · decide
    · exact hday.isLetter_eq_false c hc

theorem IsTime.isLetter_eq_false {clock : ℕ × ℕ × ℕ} (h : IsTime clock t) :
    ∀ c ∈ t, Text.isLetter c = false := by
  cases h with
  | minutes hhours hminutes =>
    simp only [List.mem_append, List.mem_cons]
    rintro c (hc | rfl | hc)
    · exact hhours.isLetter_eq_false c hc
    · decide
    · exact hminutes.isLetter_eq_false c hc
  | seconds hhours hminutes hseconds =>
    simp only [List.mem_append, List.mem_cons]
    rintro c (hc | rfl | hc | rfl | hc)
    · exact hhours.isLetter_eq_false c hc
    · decide
    · exact hminutes.isLetter_eq_false c hc
    · decide
    · exact hseconds.isLetter_eq_false c hc

theorem filter_isLetter_eq_nil (h : ∀ c ∈ t, Text.isLetter c = false) :
    t.filter Text.isLetter = [] :=
  List.filter_eq_nil_iff.mpr fun c hc => by simp [h c hc]

/-- A plain date stands alone or is followed by a time of day, as day names need brackets. -/
theorem IsWritten.plain_cases (h : IsWritten IsGap false date clock t) :
    IsDate date t ∨ ∃ day separators time c, t = day ++ (separators ++ time) ∧ IsDate date day ∧
      IsGap separators time ∧ IsTime c time ∧ clock = some c := by
  cases h with
  | alone hday => exact .inl hday
  | @followed day separators rest tail hday hgap htail hname =>
    cases htail with
    | named => cases hname rfl
    | plain hend =>
      cases hend with
      | nothing => exact absurd rfl hgap.1
      | time htime => exact .inr ⟨day, separators, rest, _, rfl, hday, hgap, htime, rfl⟩

/-- A plain date has no letter but one `T` in front of a time of day. -/
theorem IsWritten.letters (h : IsWritten IsGap false date clock t) :
    t.filter Text.isLetter = [] ∨ t.filter Text.isLetter = ['T'] ∧ clock.isSome := by
  rcases h.plain_cases with hday | ⟨day, separators, time, c, rfl, hday, hgap, htime, rfl⟩
  · exact .inl (filter_isLetter_eq_nil hday.isLetter_eq_false)
  · rw [List.filter_append, List.filter_append, filter_isLetter_eq_nil hday.isLetter_eq_false,
      filter_isLetter_eq_nil htime.isLetter_eq_false, List.nil_append, List.append_nil]
    rcases hgap.2 with ⟨-, hblank⟩ | rfl
    · refine .inl (filter_isLetter_eq_nil fun c hc => ?_)
      rw [hblank c hc]
      decide
    · exact .inr ⟨by decide, rfl⟩

/-- A plain date has no letter at its end. -/
theorem IsWritten.isLetter_last (h : IsWritten IsGap false date clock t) :
    ∀ c ∈ t.getLast?, Text.isLetter c = false := by
  rcases h.plain_cases with hday | ⟨day, separators, time, c, rfl, hday, hgap, htime, rfl⟩
  · exact fun c hc => hday.isLetter_eq_false c (List.mem_of_mem_getLast? hc)
  · rw [← List.append_assoc, List.getLast?_append_of_ne_nil _ hgap.1]
    exact fun c hc => htime.isLetter_eq_false c (List.mem_of_mem_getLast? hc)

/-- A text without outer white space is read exactly if it is a date, perhaps with a time of day,
plain or in brackets and with blanks or one `T` in between, or if it would be but for a `T` that
stands among other separators or at the end. The only letter of a plain one is a `T` in front of the
time, unless it is of the second kind. -/
theorem isSome_read?_stamp_iff (htrim : Text.trim t = t) :
    ((read? t).isSome ↔ ∃ date clock, IsReal date clock ∧
        (IsStamp IsGap date clock t ∨ IsStamp IsStray date clock t)) ∧
      ∀ stamp, read? t = some stamp → unbracket? t = none →
        t.filter Text.isLetter = [] ∨ (t.filter Text.isLetter = ['T'] ∧ stamp.withTime) ∨
          ∃ date clock, IsReal date clock ∧ IsStamp IsStray date clock t := by
  constructor
  · rw [Option.isSome_iff_exists]
    simp only [read?_eq_some_iff htrim, ← isStamp_isRun_iff htrim]
    constructor
    · rintro ⟨stamp, date, clock, hstamp, hdenotes⟩
      exact ⟨date, clock, hdenotes.isReal, hstamp⟩
    · rintro ⟨date, clock, hreal, hstamp⟩
      obtain ⟨stamp, hdenotes⟩ := exists_denotes_of_isStamp hstamp hreal
      exact ⟨stamp, date, clock, hstamp, hdenotes⟩
  · intro stamp hread hplain
    obtain ⟨date, clock, hstamp, hdenotes⟩ := (read?_eq_some_iff htrim).mp hread
    rcases (isStamp_isRun_iff htrim).mp hstamp with hgap | hstray
    · rw [← or_assoc, hdenotes.withTime_eq]
      cases hgap with
      | plain h => exact .inl h.letters
      | active => cases hplain.symm.trans (unbracket?_eq_some_iff.mpr (.inl rfl))
      | inactive => cases hplain.symm.trans (unbracket?_eq_some_iff.mpr (.inr rfl))
    · exact .inr (.inr ⟨date, clock, hdenotes.isReal, hstray⟩)

end

/-- A day name and a time of day in brackets, and a time of day after the letter `T`. -/
theorem isSome_read?_day_name_or_letter :
    Text.trim "<2024-02-29 Thu. 9:05>".toList = "<2024-02-29 Thu. 9:05>".toList ∧
      (read? "<2024-02-29 Thu. 9:05>".toList).isSome ∧
      Text.trim "2024-02-29T9:05".toList = "2024-02-29T9:05".toList ∧
      ∃ stamp, read? "2024-02-29T9:05".toList = some stamp ∧
        unbracket? "2024-02-29T9:05".toList = none ∧
        ("2024-02-29T9:05".toList.filter Text.isLetter = [] ∨
          ("2024-02-29T9:05".toList.filter Text.isLetter = ['T'] ∧ stamp.withTime) ∨
            ∃ date clock, IsReal date clock ∧
              IsStamp IsStray date clock "2024-02-29T9:05".toList) := by
  have hreal : IsReal ⟨2024, 2, 29⟩ (some (9, 5, 0)) := ⟨by decide, by decide⟩
  have hyear : IsDigits 4 4 "2024".toList := ⟨by simp, by decide, by decide⟩
  have hmonth : IsDigits 1 2 "02".toList := ⟨by simp, by decide, by decide⟩
  have hday : IsDigits 1 2 "29".toList := ⟨by simp, by decide, by decide⟩
  have hhours : IsDigits 1 2 "9".toList := ⟨by simp, by decide, by decide⟩
  have hminutes : IsDigits 2 2 "05".toList := ⟨by simp, by decide, by decide⟩
  have hname : IsDayName ("Thu".toList ++ ['.']) :=
    .dotted (by decide) (List.all_eq_true.mp (by decide))
  have hblank : Text.isBlank " ".toList := by decide
  have hgap : IsGap " ".toList "Thu. 9:05".toList := ⟨by decide, .inl ⟨by decide, by simp⟩⟩
  have htail := IsTail.named hname hblank (.time (.minutes hhours hminutes))
  have hwritten : IsWritten IsGap true ⟨2024, 2, 29⟩ (some (9, 5, 0))
      (Text.trim "2024-02-29 Thu. 9:05".toList) :=
    (IsWritten.followed (.parts hyear hmonth hday) hgap htail fun _ => rfl :)
  have hstamp : IsStamp IsGap ⟨2024, 2, 29⟩ (some (9, 5, 0)) "<2024-02-29 Thu. 9:05>".toList :=
    (IsStamp.active hwritten :)
  have htrim : Text.trim "2024-02-29T9:05".toList = "2024-02-29T9:05".toList := by decide
  obtain ⟨stamp, hread⟩ :=
    Option.isSome_iff_exists.mp (by decide : (read? "2024-02-29T9:05".toList).isSome)
  have hplain : unbracket? "2024-02-29T9:05".toList = none := by decide
  exact ⟨by decide, (isSome_read?_stamp_iff (by decide)).1.mpr ⟨_, _, hreal, .inl hstamp⟩, htrim,
    stamp, hread, hplain, (isSome_read?_stamp_iff htrim).2 stamp hread hplain⟩

/-- A `T` at the end is read, though no time of day follows it. -/
theorem read?_trailing_separator :
    Text.trim "2024-01-31T".toList = "2024-01-31T".toList ∧ (read? "2024-01-31T".toList).isSome ∧
      ¬ ∃ date clock, IsReal date clock ∧ IsStamp IsGap date clock "2024-01-31T".toList := by
  refine ⟨by decide, by decide, ?_⟩
  rintro ⟨date, clock, -, hstamp⟩
  generalize ht : "2024-01-31T".toList = t at hstamp
  cases hstamp with
  | plain h =>
    subst ht
    exact absurd (h.isLetter_last 'T' (by decide)) (by decide)
  | active => cases ht
  | inactive => cases ht

end Rollup.Timestamp
