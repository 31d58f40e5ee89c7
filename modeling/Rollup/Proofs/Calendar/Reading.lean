import Rollup.Proofs.Calendar.Written

/-! # What a date read from text is

A date alone is at midnight. Separators, the name of the day and a time of day may follow it, and
the time is the same wherever the separators are taken to end. A date starts with a year of four
digits and a dash, so that it lies in the years 0 to 9999, far inside the calendar.
-/

namespace Rollup

/-! ## The moment of a date -/

/-- The calendar goes a long way beyond the years that can be read. -/
theorem Date.toDays_bounds {d : Date} (hvalid : d.isValid) (hlow : 0 ≤ d.year)
    (hhigh : d.year ≤ 9999) : -1000000 ≤ d.toDays ∧ d.toDays ≤ 3000000 := by
  have hday : daysInMonth d.year d.month ≤ 31 := by
    unfold daysInMonth
    split
    · split <;> omega
    all_goals omega
  simp only [isValid, Bool.and_eq_true, decide_eq_true_eq] at hvalid
  simp only [toDays, Int.fdiv_eq_ediv_of_nonneg _ (by decide : (0 : ℤ) ≤ 400)]
  split <;> omega

theorem Moment.earliest_eq : earliest = -8334601228800000 := by decide

theorem Moment.latest_eq : latest = 8210266876799999 := by decide

theorem Moment.ofMillis?_eq_some_iff {millis : ℤ} {m : Moment} :
    ofMillis? millis = some m ↔ m.millis = millis := by
  unfold ofMillis?
  split
  case isTrue h => rw [Option.some_inj, Moment.mk.injEq, eq_comm]
  case isFalse h =>
    have hne : m.millis ≠ millis := fun heq => h (heq ▸ m.inCalendar)
    simpa using hne

theorem Moment.isMidnight_iff {m : Moment} : m.isMidnight ↔ (millisPerDay : ℤ) ∣ m.millis := by
  have hmod : m.millis.fmod millisPerDay = m.millis % millisPerDay :=
    Int.fmod_eq_emod_of_nonneg _ (Int.natCast_nonneg _)
  have hnonneg : 0 ≤ m.millis % millisPerDay := Int.emod_nonneg _ (by decide)
  rw [isMidnight, timeOfDay, decide_eq_true_iff, hmod, Int.dvd_iff_emod_eq_zero]
  omega

namespace Timestamp

/-! ## Separators -/

/-- What the reader takes between a date and the rest. -/
def IsRun (separators _rest : Text) : Prop := separators ≠ [] ∧ ∀ c ∈ separators, isSeparator c

section

variable {separators rest t : Text} {clock : Option (ℕ × ℕ × ℕ)} {tail : Tail}

theorem isSeparator_iff {c : Char} : isSeparator c ↔ c = ' ' ∨ c = 'T' := by simp [isSeparator]

theorem not_isDigit_of_isSeparator {c : Char} (h : isSeparator c) : c.isDigit = false := by
  rcases isSeparator_iff.mp h with rfl | rfl <;> decide

theorem IsRun.isDigit_of_mem_head? (h : IsRun separators rest) :
    ∀ c ∈ (separators ++ rest).head?, c.isDigit = false := by
  rw [List.head?_append_of_ne_nil _ h.1]
  exact fun c hc => not_isDigit_of_isSeparator (h.2 c (List.mem_of_mem_head? hc))

/-! ## Reading past the separators -/

theorem exists_of_separatedTail? (h : separatedTail? t = some tail) :
    (t = [] ∧ tail = ⟨false, none⟩) ∨
      ∃ separators rest, t = separators ++ rest ∧ IsRun separators rest ∧ IsTail tail rest := by
  unfold separatedTail? at h
  split at h
  case isTrue hnil => exact .inl ⟨hnil, (Option.some.inj h).symm⟩
  case isFalse =>
    obtain ⟨n, hn, htail⟩ := List.exists_of_findSome?_eq_some h
    rw [List.mem_range] at hn
    have htake : t.take ((t.takeWhile isSeparator).length - n) <+: t.takeWhile isSeparator :=
      List.prefix_of_prefix_length_le (List.take_prefix _ _) (List.takeWhile_prefix _)
        ((List.length_take_le _ _).trans (Nat.sub_le _ _))
    refine .inr ⟨_, _, (List.take_append_drop _ t).symm, ⟨?_, ?_⟩, tail?_eq_some_iff.mp htail⟩
    · have hpos : 0 < t.length := (Nat.zero_lt_of_lt hn).trans_le (List.takeWhile_prefix _).length_le
      exact List.ne_nil_of_length_pos (by rw [List.length_take]; omega)
    · exact fun c hc => List.mem_takeWhile_imp (htake.mem hc)

/-- Before a time of day the separators end where the time starts. -/
theorem separatedTail?_of_isEnd (hrun : IsRun separators rest) (h : IsEnd clock rest) :
    separatedTail? (separators ++ rest) = some ⟨false, clock⟩ := by
  have hmost : (separators ++ rest).takeWhile isSeparator = separators := by
    refine Text.takeWhile_append hrun.2 fun c hc => ?_
    rw [← Bool.not_eq_true]
    intro hsep
    have hdigit := h.isDigit_of_mem_head? c hc
    rw [not_isDigit_of_isSeparator hsep] at hdigit
    cases hdigit
  obtain ⟨n, hn⟩ := Nat.exists_eq_add_one.mpr (List.length_pos_iff.mpr hrun.1)
  unfold separatedTail?
  rw [if_neg (by simp [hrun.1]), hmost]
  dsimp only
  rw [hn, List.range_succ_eq_map, List.findSome?_cons, Nat.sub_zero, ← hn, List.drop_left,
    tail?_eq_some_iff.mpr (.plain h)]

/-- Before a day name that starts with a `T` fewer separators may be taken than there are. -/
theorem isSome_separatedTail? (hrun : IsRun separators rest) (htail : IsTail tail rest) :
    (separatedTail? (separators ++ rest)).isSome := by
  have hpos := List.length_pos_iff.mpr hrun.1
  unfold separatedTail?
  rw [if_neg (by simp [hrun.1]), List.takeWhile_append_of_pos hrun.2, List.length_append,
    List.findSome?_isSome_iff]
  refine ⟨(rest.takeWhile isSeparator).length, List.mem_range.mpr (by omega), ?_⟩
  rw [Nat.add_sub_cancel, List.drop_left, tail?_eq_some_iff.mpr htail]
  rfl

theorem IsEnd.clock?_eq (h : IsEnd clock t) : clock? t = clock := by
  cases h with
  | nothing => rfl
  | time h => exact clock?_eq_some_iff.mpr h

theorem IsDayName.isDigit_eq_false {name : Text} (h : IsDayName name) :
    ∀ c ∈ name, c.isDigit = false := by
  cases h with
  | plain _ h => exact fun c hc => Text.not_isDigit_of_isLetter (h c hc)
  | dotted _ h =>
    intro c hc
    rcases List.mem_append.mp hc with hc | hc
    · exact Text.not_isDigit_of_isLetter (h c hc)
    · rw [List.mem_singleton.mp hc]
      decide

/-- The time of day starts at the first digit, wherever the separators are taken to end. -/
theorem IsTail.clock?_eq (hrun : IsRun separators rest) (h : IsTail tail rest) :
    clock? ((separators ++ rest).dropWhile fun c => !c.isDigit) = tail.clock := by
  have hdrop {before t : Text} {clock : Option (ℕ × ℕ × ℕ)}
      (hbefore : ∀ c ∈ before, c.isDigit = false) (h : IsEnd clock t) :
      clock? ((before ++ t).dropWhile fun c => !c.isDigit) = clock := by
    rw [Text.dropWhile_append (fun c hc => by simp [hbefore c hc])
      fun c hc => by simp [h.isDigit_of_mem_head? c hc]]
    exact h.clock?_eq
  have hseparators : ∀ c ∈ separators, c.isDigit = false :=
    fun c hc => not_isDigit_of_isSeparator (hrun.2 c hc)
  cases h with
  | plain h => exact hdrop hseparators h
  | @named name white t clock hname hwhite h =>
    rw [← List.append_assoc, ← List.append_assoc]
    refine hdrop (fun c hc => ?_) h
    simp only [List.mem_append] at hc
    rcases hc with (hc | hc) | hc
    · exact hseparators c hc
    · exact hname.isDigit_eq_false c hc
    · rw [← Bool.not_eq_true]
      intro hdigit
      have hc := Text.isBlank_iff.mp hwhite c hc
      rw [Text.isWhite_of_isDigit hdigit] at hc
      cases hc

/-- The reader may split the separators from a day name at another place, and finds the same time. -/
theorem separatedTail?_append (hrun : IsRun separators rest) (htail : IsTail tail rest) :
    ∃ found, separatedTail? (separators ++ rest) = some found ∧ found.clock = tail.clock ∧
      (found.dayName → tail.dayName) := by
  obtain ⟨found, hfound⟩ := Option.isSome_iff_exists.mp (isSome_separatedTail? hrun htail)
  refine ⟨found, hfound, ?_, ?_⟩
  · rcases exists_of_separatedTail? hfound with ⟨hnil, -⟩ | ⟨separators', rest', heq, hrun', htail'⟩
    · exact absurd (List.append_eq_nil_iff.mp hnil).1 hrun.1
    · rw [← htail'.clock?_eq hrun', ← htail.clock?_eq hrun, heq]
  · cases htail with
    | plain h =>
      rw [separatedTail?_of_isEnd hrun h] at hfound
      cases hfound
      exact id
    | named => exact fun _ => rfl

end

/-! ## Dates with what follows them -/

/-- A date alone, or with separators of some kind and what may follow them. A day name stands in
brackets only. -/
inductive IsWritten (gap : Text → Text → Prop) (bracketed : Bool) (date : Date) :
    Option (ℕ × ℕ × ℕ) → Text → Prop
  | alone {day : Text} (hday : IsDate date day) : IsWritten gap bracketed date none day
  | followed {day separators rest : Text} {tail : Tail} (hday : IsDate date day)
      (hgap : gap separators rest) (htail : IsTail tail rest) (hname : tail.dayName → bracketed) :
      IsWritten gap bracketed date tail.clock (day ++ (separators ++ rest))

/-- The calendar has the date and the clock has the time. -/
def IsReal (date : Date) (clock : Option (ℕ × ℕ × ℕ)) : Prop :=
  date.isValid ∧ ∀ c ∈ clock, isClock c.1 c.2.1 c.2.2

/-- The second of a day that a time of day names, the first one without a time. -/
def secondOfDay : Option (ℕ × ℕ × ℕ) → ℕ
  | none => 0
  | some (hours, minutes, seconds) => (hours * 60 + minutes) * 60 + seconds

theorem secondOfDay_lt {clock : Option (ℕ × ℕ × ℕ)}
    (h : ∀ c ∈ clock, isClock c.1 c.2.1 c.2.2) : secondOfDay clock < 86400 := by
  match clock with
  | none => decide
  | some (hours, minutes, seconds) =>
    have hclock := h _ rfl
    simp only [isClock, Bool.and_eq_true, decide_eq_true_eq] at hclock
    simp only [secondOfDay]
    omega

/-- The timestamp is that of the date and the time of day, or of midnight without one. -/
structure Denotes (stamp : Timestamp) (date : Date) (clock : Option (ℕ × ℕ × ℕ)) : Prop where
  isReal : IsReal date clock
  millis_eq : stamp.moment.millis = date.toDays * Moment.millisPerDay + secondOfDay clock * 1000
  withTime_eq : stamp.withTime = clock.isSome

section

variable {gap : Text → Text → Prop} {bracketed : Bool} {date : Date} {clock : Option (ℕ × ℕ × ℕ)}
  {t rest inner : Text} {tail : Tail} {stamp : Timestamp}

theorem map_ofMillis?_eq_some_iff {millis : ℤ} {withTime : Bool} :
    (Moment.ofMillis? millis).map (⟨·, withTime⟩) = some stamp ↔
      stamp.moment.millis = millis ∧ stamp.withTime = withTime := by
  rw [Option.map_eq_some_iff]
  constructor
  · rintro ⟨m, hm, rfl⟩
    exact ⟨Moment.ofMillis?_eq_some_iff.mp hm, rfl⟩
  · rintro ⟨hm, rfl⟩
    exact ⟨stamp.moment, Moment.ofMillis?_eq_some_iff.mpr hm, rfl⟩

theorem denotes_iff : stamp.Denotes date clock ↔ IsReal date clock ∧
    stamp.moment.millis = date.toDays * Moment.millisPerDay + secondOfDay clock * 1000 ∧
      stamp.withTime = clock.isSome :=
  ⟨fun h => ⟨h.isReal, h.millis_eq, h.withTime_eq⟩, fun h => ⟨h.1, h.2.1, h.2.2⟩⟩

/-- The reader checks the date and the time that the parts of the text give. -/
theorem readPlain?_eq_some_iff_denotes (hdate : date? t = some (date, rest))
    (htail : separatedTail? rest = some tail) :
    readPlain? bracketed t = some stamp ↔
      (tail.dayName → bracketed) ∧ stamp.Denotes date tail.clock := by
  unfold readPlain?
  simp only [hdate, htail, Option.bind_eq_bind, Option.bind_some]
  split
  case isTrue hrefused =>
    have hnot : ¬ ((tail.dayName → bracketed) ∧ date.isValid) := by
      simpa [imp_iff_not_or, ← not_and_or] using hrefused
    exact iff_of_false (by simp) fun h => hnot ⟨h.1, h.2.isReal.1⟩
  case isFalse haccepted =>
    obtain ⟨hname, hvalid⟩ : (tail.dayName → bracketed) ∧ date.isValid := by
      simpa [imp_iff_not_or, ← not_and_or] using haccepted
    rw [denotes_iff, and_iff_right hname]
    cases tail.clock with
    | none =>
      rw [map_ofMillis?_eq_some_iff]
      simp [IsReal, hvalid, secondOfDay]
    | some clock =>
      dsimp only
      split
      case isTrue hclock =>
        rw [map_ofMillis?_eq_some_iff]
        simp [IsReal, hvalid, secondOfDay, hclock]
      case isFalse hclock => simp [IsReal, hclock]

theorem readPlain?_eq_some_iff :
    readPlain? bracketed t = some stamp ↔
      ∃ date clock, IsWritten IsRun bracketed date clock t ∧ stamp.Denotes date clock := by
  constructor
  · intro h
    have hread := h
    unfold readPlain? at hread
    obtain ⟨⟨date, rest⟩, hdate, hread⟩ := Option.bind_eq_some_iff.mp hread
    obtain ⟨tail, htail, -⟩ := Option.bind_eq_some_iff.mp hread
    obtain ⟨hname, hdenotes⟩ := (readPlain?_eq_some_iff_denotes hdate htail).mp h
    obtain ⟨day, hday, rfl⟩ := isDate_of_date? hdate
    refine ⟨date, tail.clock, ?_, hdenotes⟩
    rcases exists_of_separatedTail? htail with ⟨rfl, rfl⟩ | ⟨separators, rest, rfl, hrun, htail⟩
    · rw [List.append_nil]
      exact .alone hday
    · exact .followed hday hrun htail hname
  · rintro ⟨date, clock, hwritten, hdenotes⟩
    cases hwritten with
    | alone hday =>
      have hdate : date? (_ ++ []) = _ := date?_append hday (by simp)
      rw [List.append_nil] at hdate
      have htail : separatedTail? [] = some ⟨false, none⟩ := rfl
      exact (readPlain?_eq_some_iff_denotes hdate htail).mpr ⟨by simp, hdenotes⟩
    | @followed day separators rest tail hday hrun htail hname =>
      obtain ⟨found, hfound, hclock, hdayName⟩ := separatedTail?_append hrun htail
      rw [← hclock] at hdenotes
      have hdate := date?_append hday hrun.isDigit_of_mem_head?
      exact (readPlain?_eq_some_iff_denotes hdate hfound).mpr
        ⟨fun h => hname (hdayName h), hdenotes⟩

theorem IsWritten.year_bounds (h : IsWritten gap bracketed date clock t) :
    0 ≤ date.year ∧ date.year ≤ 9999 := by
  cases h with
  | alone hday => exact hday.year_bounds
  | followed hday => exact hday.year_bounds

/-- Every date that can be written lies within the calendar. -/
theorem exists_denotes (hwritten : IsWritten gap bracketed date clock t) (hreal : IsReal date clock) :
    ∃ stamp : Timestamp, stamp.Denotes date clock := by
  obtain ⟨hlow, hhigh⟩ := hwritten.year_bounds
  obtain ⟨hfirst, hlast⟩ := Date.toDays_bounds hreal.1 hlow hhigh
  have hsecond := secondOfDay_lt hreal.2
  refine ⟨⟨⟨date.toDays * Moment.millisPerDay + secondOfDay clock * 1000, ?_⟩, clock.isSome⟩,
    hreal, rfl, rfl⟩
  rw [Moment.earliest_eq, Moment.latest_eq]
  unfold Moment.millisPerDay
  omega

/-- No dash, no date: one stands between the year and the month. -/
theorem readPlain?_eq_none (bracketed : Bool) (h : '-' ∉ t.tail) : readPlain? bracketed t = none := by
  have hdate : date? t = none := by
    rw [Option.eq_none_iff_forall_ne_some]
    rintro ⟨date, rest⟩ hdate
    obtain ⟨year, after, hyear, rfl⟩ := exists_of_date? hdate
    exact h (by simp [List.tail_append_of_ne_nil (hyear.ne_nil (by decide))])
  rw [readPlain?, hdate]
  rfl

theorem unbracket?_eq_some_iff :
    unbracket? t = some inner ↔ t = '<' :: (inner ++ ['>']) ∨ t = '[' :: (inner ++ [']']) := by
  unfold unbracket?
  split
  · simp [Text.before?_eq_some_iff]
  · simp [Text.before?_eq_some_iff]
  case h_3 hactive hinactive =>
    refine iff_of_false (by simp) ?_
    rintro (rfl | rfl)
    · exact hactive _ rfl
    · exact hinactive _ rfl

theorem read?_eq_none (hhead : ∀ c ∈ t.head?, c ≠ '<' ∧ c ≠ '[') (h : '-' ∉ (Text.trim t).tail) :
    read? t = none := by
  have hplain : unbracket? t = none := by
    rw [Option.eq_none_iff_forall_ne_some]
    intro inner hinner
    rcases unbracket?_eq_some_iff.mp hinner with rfl | rfl
    · exact (hhead '<' rfl).1 rfl
    · exact (hhead '[' rfl).2 rfl
  rw [read?, hplain]
  exact readPlain?_eq_none false h

/-! ## Readable timestamps -/

/-- What a timestamp read from text is: a second of a day in the years 0 to 9999, the first of that
day when the text gave no time. -/
structure Readable (stamp : Timestamp) : Prop where
  day : ∃ date : Date, date.isValid ∧ 0 ≤ date.year ∧ date.year ≤ 9999 ∧ ∃ seconds : ℕ,
    seconds < 86400 ∧ stamp.moment.millis = date.toDays * Moment.millisPerDay + seconds * 1000
  midnight : stamp.withTime = false → stamp.moment.isMidnight

theorem readable_of_readPlain? (h : readPlain? bracketed t = some stamp) : stamp.Readable := by
  obtain ⟨date, clock, hwritten, hdenotes⟩ := readPlain?_eq_some_iff.mp h
  obtain ⟨hlow, hhigh⟩ := hwritten.year_bounds
  refine ⟨⟨date, hdenotes.isReal.1, hlow, hhigh, secondOfDay clock,
    secondOfDay_lt hdenotes.isReal.2, hdenotes.millis_eq⟩, fun hflag => ?_⟩
  have hnone : clock = none := by
    rw [← Option.not_isSome_iff_eq_none, ← hdenotes.withTime_eq, hflag]
    decide
  rw [Moment.isMidnight_iff, hdenotes.millis_eq, hnone]
  simp [secondOfDay]

theorem readable_of_read? (h : read? t = some stamp) : stamp.Readable := by
  unfold read? at h
  split at h <;> exact readable_of_readPlain? h

end

end Timestamp

end Rollup
