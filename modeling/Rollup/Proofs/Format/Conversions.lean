import Rollup.Format.Printf
import Rollup.Proofs.Text.Cut
import Rollup.Proofs.Text.Pieces

/-! # Reading a pattern step by step

A step takes a plain character, a doubled percent sign or a conversion. The head of a conversion is
taken up to the first character that does not go on with it, so that leading zeros are flags.
-/

namespace Rollup.Printf

/-! ## Heads of conversions -/

/-- Flags, digits, and perhaps a point with digits. Each of them may be missing. -/
structure Head.Spelled (h : Head) : Prop where
  flags : ∀ c ∈ h.flags, isFlag c
  width : ∀ c ∈ h.width, c.isDigit
  precision : ∀ digits ∈ h.precision, ∀ c ∈ digits, c.isDigit

/-- A head in which no zero that is a flag counts as a digit of the width. -/
structure Head.Exact (h : Head) : Prop extends h.Spelled where
  no_zero : h.width.head? ≠ some '0'

def IsHead (t : Text) : Prop := ∃ h : Head, h.Spelled ∧ h.text = t

/-- The character does not go on with the head. -/
structure Head.Stops (h : Head) (c : Char) : Prop where
  digit : c.isDigit = false
  point : h.precision = none → c ≠ '.'
  flag : h.width = [] → h.precision = none → isFlag c = false

def point : Option Text → Text
  | none => []
  | some digits => '.' :: digits

theorem Head.text_eq (h : Head) : h.text = h.flags ++ (h.width ++ point h.precision) := by
  obtain ⟨flags, width, precision⟩ := h
  cases precision <;> simp [text, point]

theorem isFlag_iff {c : Char} : isFlag c ↔ c = '-' ∨ c = '+' ∨ c = ' ' ∨ c = '0' ∨ c = '#' := by
  simp [isFlag]

theorem isFlag_eq_false_of_isDigit {c : Char} (hc : c.isDigit) (hzero : c ≠ '0') :
    isFlag c = false := by
  rw [Bool.eq_false_iff]
  intro hflag
  rcases isFlag_iff.mp hflag with rfl | rfl | rfl | rfl | rfl
  all_goals first | exact hzero rfl | cases hc

section Scanning

variable {h : Head} {rest : Text}

theorem Head.scan_eq (t : Text) : scan t =
    ⟨t.takeWhile isFlag, (t.dropWhile isFlag).takeWhile Char.isDigit,
      (Text.after? ['.'] ((t.dropWhile isFlag).dropWhile Char.isDigit)).map
        (·.takeWhile Char.isDigit)⟩ := by
  simp only [scan, Text.drop_length_takeWhile]

theorem Head.exists_scan_append (t : Text) :
    ∃ rest, t = (scan t).text ++ rest ∧ ∀ c ∈ rest.head?, (scan t).Stops c := by
  let behindFlags := t.dropWhile isFlag
  let behindWidth := behindFlags.dropWhile Char.isDigit
  have htext : ∀ (precision : Option Text) (rest : Text), behindWidth = point precision ++ rest →
      t = (⟨t.takeWhile isFlag, behindFlags.takeWhile Char.isDigit, precision⟩ : Head).text ++
        rest := by
    intro precision rest hrest
    rw [text_eq, List.append_assoc, List.append_assoc, ← hrest, List.takeWhile_append_dropWhile,
      List.takeWhile_append_dropWhile]
  rw [scan_eq]
  cases hafter : Text.after? ['.'] behindWidth with
  | some u =>
    have hsplit : behindWidth =
        point (some (u.takeWhile Char.isDigit)) ++ u.dropWhile Char.isDigit := by
      rw [Text.after?_eq_some_iff.mp hafter]
      exact congrArg ('.' :: ·) List.takeWhile_append_dropWhile.symm
    exact ⟨_, htext _ _ hsplit, fun c hc =>
      ⟨Text.of_mem_head?_dropWhile hc, by simp, by simp⟩⟩
  | none =>
    refine ⟨behindWidth, htext none behindWidth rfl, fun c hc =>
      ⟨Text.of_mem_head?_dropWhile hc, fun _ => ?_, ?_⟩⟩
    · rintro rfl
      obtain ⟨u, hu⟩ := List.head?_eq_some_iff.mp hc
      rw [Text.after?_eq_some_iff.mpr hu] at hafter
      cases hafter
    · intro hwidth _
      have hsame : behindWidth = behindFlags := by
        have hsplit := List.takeWhile_append_dropWhile (p := Char.isDigit) (l := behindFlags)
        rwa [show behindFlags.takeWhile Char.isDigit = [] from hwidth] at hsplit
      rw [hsame] at hc
      exact Text.of_mem_head?_dropWhile hc

theorem Head.exact_scan (t : Text) : (scan t).Exact := by
  rw [scan_eq]
  refine ⟨⟨fun c => List.mem_takeWhile_imp, fun c => List.mem_takeWhile_imp, ?_⟩, ?_⟩
  · intro digits hdigits c hc
    obtain ⟨u, -, rfl⟩ := Option.map_eq_some_iff.mp hdigits
    exact List.mem_takeWhile_imp hc
  · intro hzero
    rw [List.head?_takeWhile, Option.filter_eq_some_iff] at hzero
    cases Text.of_mem_head?_dropWhile hzero.1

/-- A head is scanned up to where it stops. -/
theorem Head.Exact.scan_append (hh : h.Exact) (hrest : ∀ c ∈ rest.head?, h.Stops c) :
    Head.scan (h.text ++ rest) = h := by
  obtain ⟨flags, width, precision⟩ := h
  have hpoint : ∀ c ∈ (point precision ++ rest).head?, c.isDigit = false := by
    cases precision with
    | none => exact fun c hc => (hrest c hc).digit
    | some digits =>
      rintro c ⟨⟩
      rfl
  have hwidth : ∀ c ∈ (width ++ (point precision ++ rest)).head?, isFlag c = false := by
    cases width with
    | cons d width =>
      rintro c ⟨⟩
      exact isFlag_eq_false_of_isDigit (hh.width d List.mem_cons_self)
        fun hzero => hh.no_zero (congrArg some hzero)
    | nil =>
      cases precision with
      | none => exact fun c hc => (hrest c hc).flag rfl rfl
      | some digits =>
        rintro c ⟨⟩
        rfl
  have hafter : (Text.after? ['.'] (point precision ++ rest)).map (·.takeWhile Char.isDigit) =
      precision := by
    cases precision with
    | none =>
      have hnone : Text.after? ['.'] rest = none := by
        rw [Option.eq_none_iff_forall_ne_some]
        intro u hu
        rw [Text.after?_eq_some_iff.mp hu] at hrest
        exact (hrest '.' rfl).point rfl rfl
      exact congrArg _ hnone
    | some digits =>
      have hdigits := Text.takeWhile_append (hh.precision digits rfl) fun c hc => (hrest c hc).digit
      simp [point, Text.after?, hdigits]
  simp only [text_eq, scan, List.append_assoc, Text.takeWhile_append hh.flags hwidth,
    List.drop_left, Text.takeWhile_append hh.width hpoint, hafter]

/-- The zeros that start a width are flags. -/
theorem Head.Spelled.exists_exact (hh : h.Spelled) : ∃ h' : Head, h'.Exact ∧ h'.text = h.text := by
  obtain ⟨flags, width, precision⟩ := h
  refine ⟨⟨flags ++ width.takeWhile (· == '0'), width.dropWhile (· == '0'), precision⟩,
    ⟨⟨?_, ?_, hh.precision⟩, ?_⟩, ?_⟩
  · intro c hc
    rcases List.mem_append.mp hc with hc | hc
    · exact hh.flags c hc
    · have hzero := List.mem_takeWhile_imp hc
      obtain rfl : c = '0' := eq_of_beq hzero
      rfl
  · exact fun c hc => hh.width c ((List.dropWhile_sublist _).mem hc)
  · intro hzero
    cases Text.of_mem_head?_dropWhile hzero
  · rw [text_eq, text_eq, List.append_assoc, ← List.append_assoc (width.takeWhile _),
      List.takeWhile_append_dropWhile]

theorem Head.Exact.stops_iff (hh : h.Exact) {c : Char} : h.Stops c ↔ ¬ IsHead (h.text ++ [c]) := by
  constructor
  · rintro hstop ⟨longer, hlonger, htext⟩
    obtain ⟨longer, hlonger, htext'⟩ := hlonger.exists_exact
    have hscan : Head.scan (h.text ++ [c]) = h :=
      hh.scan_append (by rintro _ ⟨⟩; exact hstop)
    have hscan' : Head.scan (longer.text ++ []) = longer := hlonger.scan_append (by simp)
    rw [List.append_nil, htext', htext, hscan] at hscan'
    rw [← htext', ← hscan'] at htext
    simp at htext
  · intro hnot
    obtain ⟨flags, width, precision⟩ := h
    constructor
    case digit =>
      rw [← Bool.not_eq_true]
      intro hc
      cases precision with
      | none => exact hnot ⟨⟨flags, width ++ [c], none⟩,
          ⟨hh.flags, by simpa [or_imp, forall_and, hc] using hh.width, hh.precision⟩,
          by simp [text]⟩
      | some digits => exact hnot ⟨⟨flags, width, some (digits ++ [c])⟩,
          ⟨hh.flags, hh.width, by simpa [or_imp, forall_and, hc] using hh.precision⟩,
          by simp [text]⟩
    case point =>
      rintro ⟨⟩ rfl
      exact hnot ⟨⟨flags, width, some []⟩, ⟨hh.flags, hh.width, by simp⟩, by simp [text]⟩
    case flag =>
      rintro ⟨⟩ ⟨⟩
      rw [← Bool.not_eq_true]
      intro hc
      exact hnot ⟨⟨flags ++ [c], [], none⟩,
        ⟨by simpa [or_imp, forall_and, hc] using hh.flags, by simp, by simp⟩, by simp [text]⟩

end Scanning

/-! ## Reading a conversion -/

theorem byteSize_percent (t : Text) : Text.byteSize ('%' :: t) = 1 + Text.byteSize t := rfl

/-- The letters of the kinds. -/
def letters : Text := ['d', 'i', 'f', 'F', 'e', 'E', 'g', 'G', 's', 'x', 'X', 'o']

theorem isSome_ofChar?_iff {c : Char} : (Kind.ofChar? c).isSome ↔ c ∈ letters := by
  unfold Kind.ofChar?
  split <;> simp_all [letters]

/-- What is known of a letter: no head goes on with it. -/
structure IsLetter (c : Char) : Prop where
  flag : isFlag c = false
  digit : c.isDigit = false
  point : c ≠ '.'
  percent : c ≠ '%'
  utf8Size : c.utf8Size = 1

theorem isLetter_of_mem {c : Char} (h : c ∈ letters) : IsLetter c := by
  have hall : letters.all fun c => !isFlag c && !c.isDigit && c != '.' && c != '%' &&
      c.utf8Size == 1 := rfl
  have hc := List.all_eq_true.mp hall c h
  simp only [Bool.and_eq_true, Bool.not_eq_true', bne_iff_ne, beq_iff_eq] at hc
  obtain ⟨⟨⟨⟨hflag, hdigit⟩, hpoint⟩, hpercent⟩, hsize⟩ := hc
  exact ⟨hflag, hdigit, hpoint, hpercent, hsize⟩

theorem isLetter_of_ofChar? {c : Char} {kind : Kind} (h : Kind.ofChar? c = some kind) :
    IsLetter c :=
  isLetter_of_mem (isSome_ofChar?_iff.mp (by rw [h]; rfl))

theorem IsLetter.stops {c : Char} (hc : IsLetter c) (h : Head) : h.Stops c :=
  ⟨hc.digit, fun _ => hc.point, fun _ _ => hc.flag⟩

section Reading

variable {h : Head} {kind : Kind} {t rest : Text} {c : Char}

theorem Head.Spelled.ne_percent (hh : h.Spelled) (hc : c ∈ h.text) : c ≠ '%' := by
  rintro rfl
  rw [text_eq, List.mem_append, List.mem_append] at hc
  rcases hc with hc | hc | hc
  · cases hh.flags _ hc
  · cases hh.width _ hc
  · cases hprecision : h.precision with
    | none => simp [hprecision, point] at hc
    | some digits =>
      rw [hprecision] at hc
      rcases List.mem_cons.mp hc with hc | hc
      · cases hc
      · cases hh.precision digits hprecision _ hc

theorem Head.Spelled.append_ne_percent (hh : h.Spelled)
    (hrest : h.text = [] → rest.head? ≠ some '%') (u : Text) : h.text ++ rest ≠ '%' :: u := by
  intro heq
  cases htext : h.text with
  | nil =>
    rw [htext, List.nil_append] at heq
    exact hrest htext (by rw [heq]; rfl)
  | cons c v =>
    rw [htext, List.cons_append] at heq
    exact hh.ne_percent (htext ▸ List.mem_cons_self) (List.head_eq_of_cons_eq heq)

theorem read_percent (offset : ℕ) (t : Text) :
    read offset ('%' :: '%' :: t) = (read (offset + 2) t).map (consLiteral '%') := by
  rw [read]

theorem read_plain (hc : c ≠ '%') (offset : ℕ) (t : Text) :
    read offset (c :: t) = (read (offset + c.utf8Size) t).map (consLiteral c) := by
  rw [read]
  · intro u hpercent
    exact absurd hpercent hc
  · exact hc

/-- A percent sign with a head, and what stands behind them. -/
theorem read_head (hh : h.Exact) (hrest : ∀ c ∈ rest.head?, h.Stops c)
    (hpercent : h.text = [] → rest.head? ≠ some '%') (offset : ℕ) :
    read offset ('%' :: (h.text ++ rest)) =
      match rest with
      | [] => .error ⟨.incompleteConversion, offset⟩
      | c :: t =>
        match Kind.ofChar? c with
        | none => .error ⟨.unknownConversion c, offset + 1 + Text.byteSize h.text⟩
        | some kind => (read (offset + 2 + Text.byteSize h.text) t).map
            (.conversion (h.conversion kind) :: ·) := by
  rw [read]
  · simp only [hh.scan_append hrest, List.drop_left, List.drop_length_add_append]
    cases rest with
    | nil => rfl
    | cons c t => rfl
  · exact fun u => hh.append_ne_percent hpercent u

theorem read_incomplete (hh : h.Exact) (offset : ℕ) :
    read offset ('%' :: h.text) = .error ⟨.incompleteConversion, offset⟩ := by
  have hread : read offset ('%' :: (h.text ++ [])) = .error ⟨.incompleteConversion, offset⟩ :=
    read_head hh (by simp) (by simp) offset
  rwa [List.append_nil] at hread

theorem read_unknown (hh : h.Exact) (hstops : h.Stops c) (hpercent : h.text = [] → c ≠ '%')
    (hletter : c ∉ letters) (offset : ℕ) (t : Text) :
    read offset ('%' :: (h.text ++ c :: t)) =
      .error ⟨.unknownConversion c, offset + 1 + Text.byteSize h.text⟩ := by
  rw [read_head hh (by rintro _ ⟨⟩; exact hstops) (by simpa using hpercent)]
  have hkind : Kind.ofChar? c = none := by
    rwa [← isSome_ofChar?_iff, Option.not_isSome_iff_eq_none] at hletter
  dsimp only
  rw [hkind]

theorem read_conversion (hh : h.Exact) (hkind : Kind.ofChar? c = some kind) (offset : ℕ)
    (t : Text) :
    read offset ('%' :: (h.text ++ c :: t)) =
      (read (offset + Text.byteSize ('%' :: (h.text ++ [c]))) t).map
        (.conversion (h.conversion kind) :: ·) := by
  have hletter := isLetter_of_ofChar? hkind
  have hsize : Text.byteSize ('%' :: (h.text ++ [c])) = 2 + Text.byteSize h.text := by
    rw [byteSize_percent, Text.byteSize_append, Text.byteSize_cons, hletter.utf8Size,
      Text.byteSize_nil]
    omega
  rw [read_head hh (by rintro _ ⟨⟩; exact hletter.stops h) (by simp [hletter.percent])]
  dsimp only
  rw [hkind, hsize, ← Nat.add_assoc]

/-! ## Reading step by step -/

/-- The way through a text, up to its end or to a fault. -/
inductive Path : Text → Prop
  | nil : Path []
  | plain {c : Char} {t : Text} (hc : c ≠ '%') (ht : Path t) : Path (c :: t)
  | percent {t : Text} (ht : Path t) : Path ('%' :: '%' :: t)
  | incomplete {h : Head} (hh : h.Exact) : Path ('%' :: h.text)
  | unknown {h : Head} {c : Char} {rest : Text} (hh : h.Exact) (hstops : h.Stops c)
      (hpercent : h.text = [] → c ≠ '%') (hletter : c ∉ letters) :
      Path ('%' :: (h.text ++ c :: rest))
  | conversion {h : Head} {letter : Char} {kind : Kind} {t : Text} (hh : h.Exact)
      (hkind : Kind.ofChar? letter = some kind) (ht : Path t) :
      Path ('%' :: (h.text ++ letter :: t))

theorem path (t : Text) : Path t := by
  induction hlength : t.length using Nat.strong_induction_on generalizing t with
  | _ n ih =>
    subst hlength
    cases t with
    | nil => exact .nil
    | cons c t =>
      by_cases hc : c = '%'
      case neg => exact .plain hc (ih _ (by simp) t rfl)
      subst hc
      obtain ⟨rest, ht, hstops⟩ := Head.exists_scan_append t
      have hh := Head.exact_scan t
      generalize Head.scan t = h at ht hstops hh
      subst ht
      cases rest with
      | nil =>
        rw [List.append_nil]
        exact .incomplete hh
      | cons c rest =>
        by_cases hpercent : h.text = [] ∧ c = '%'
        · obtain ⟨htext, rfl⟩ := hpercent
          rw [htext]
          exact .percent (ih _ (by simp; omega) rest rfl)
        · by_cases hletter : c ∈ letters
          · obtain ⟨kind, hkind⟩ := Option.isSome_iff_exists.mp (isSome_ofChar?_iff.mpr hletter)
            exact .conversion hh hkind (ih _ (by simp; omega) rest rfl)
          · exact .unknown hh (hstops c rfl) (fun htext hc => hpercent ⟨htext, hc⟩) hletter

end Reading

end Rollup.Printf
