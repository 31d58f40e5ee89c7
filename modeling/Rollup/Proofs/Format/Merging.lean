import Rollup.Proofs.Column.Reordering
import Rollup.Proofs.Format.Conversions

/-! # Format segments in parts

A segment is read flag by flag, so that it may be cut wherever no run of digits and no pattern goes
on. Its parts, merged one after the other, give what the whole gives, and a fault keeps its place.
-/

namespace Rollup

/-- The fault as it is found when `bytes` more bytes stand before the text. -/
def Fault.later {Problem : Type} (bytes : ℕ) (f : Fault Problem) : Fault Problem :=
  { f with offset := bytes + f.offset }

theorem mapError_map {ε ε' α β : Type} (g : ε → ε') (f : α → β) (x : Except ε α) :
    (x.mapError g).map f = (x.map f).mapError g := by
  cases x <;> rfl

theorem Printf.read_later (bytes offset : ℕ) (t : Text) :
    read (bytes + offset) t = (read offset t).mapError (Fault.later bytes) := by
  induction path t generalizing offset with
  | nil =>
    rw [read, read]
    rfl
  | plain hc _ ih => rw [read_plain hc, read_plain hc, Nat.add_assoc, ih, mapError_map]
  | percent _ ih => rw [read_percent, read_percent, Nat.add_assoc, ih, mapError_map]
  | incomplete hh =>
    rw [read_incomplete hh, read_incomplete hh]
    rfl
  | unknown hh hstops hpercent hletter =>
    rw [read_unknown hh hstops hpercent hletter, read_unknown hh hstops hpercent hletter,
      Nat.add_assoc, Nat.add_assoc, ← Nat.add_assoc offset]
    rfl
  | conversion hh hkind _ ih =>
    rw [read_conversion hh hkind, read_conversion hh hkind, Nat.add_assoc, ih, mapError_map]

namespace CellFormat

variable {c : Char} {t a b : Text}

/-! ## One flag -/

/-- The effect of a flag before a text, and the digits of the text that belong to it. -/
def flag (c : Char) (t : Text) : Except FormatProblem ((CellFormat → CellFormat) × Text) :=
  match countFlag? c with
  | some apply =>
    let digits := t.takeWhile Char.isDigit
    match Text.toNatBelow? Text.countBound digits with
    | some n => .ok (fun f => apply f n, digits)
    | none => .error (.needsDigits c)
  | none =>
    match plainFlag? c with
    | some apply => .ok (apply, [])
    | none => .error (.unknownFlag c)

theorem mergeFrom_nil (f : CellFormat) (offset : ℕ) : f.mergeFrom offset [] = .ok f := by
  rw [mergeFrom]

theorem mergeFrom_pattern (f : CellFormat) (offset : ℕ) (t : Text) :
    f.mergeFrom offset ('%' :: t) =
      (Printf.read offset ('%' :: t)).map fun p => { f with printf := some p } := by
  rw [mergeFrom, if_pos rfl]

theorem mergeFrom_flag (hc : c ≠ '%') (f : CellFormat) (offset : ℕ) (t : Text) :
    f.mergeFrom offset (c :: t) =
      match flag c t with
      | .ok (apply, digits) =>
        (apply f).mergeFrom (offset + (1 + digits.length)) (t.drop digits.length)
      | .error problem => .error ⟨problem, offset⟩ := by
  rw [mergeFrom, if_neg hc, flag]
  cases countFlag? c with
  | some apply =>
    dsimp only
    cases Text.toNatBelow? Text.countBound (t.takeWhile Char.isDigit) with
    | some n =>
      dsimp only
      rw [Nat.add_assoc]
    | none => rfl
  | none => cases plainFlag? c <;> rfl

theorem flag_append (hb : ∀ c ∈ b.head?, c.isDigit = false) (c : Char) (t : Text) :
    flag c (t ++ b) = flag c t := by
  have hdigits : (t ++ b).takeWhile Char.isDigit = t.takeWhile Char.isDigit := by
    conv_lhs => rw [← List.takeWhile_append_dropWhile (p := Char.isDigit) (l := t)]
    rw [List.append_assoc]
    apply Text.takeWhile_append fun c => List.mem_takeWhile_imp
    cases hrest : t.dropWhile Char.isDigit with
    | nil => exact hb
    | cons d u =>
      rintro c ⟨⟩
      exact Text.of_mem_head?_dropWhile (l := t) (by rw [hrest]; rfl)
  rw [flag, flag, hdigits]

theorem utf8Size_of_isDigit (h : c.isDigit) : c.utf8Size = 1 := by
  simp only [Char.isDigit, Bool.and_eq_true, decide_eq_true_eq] at h
  have hmax : (57 : UInt32) ≤ 127 := by decide
  exact Char.utf8Size_eq_one_iff.mpr (UInt32.le_trans h.2 hmax)

theorem byteSize_of_isDigit (h : ∀ c ∈ t, c.isDigit) : Text.byteSize t = t.length := by
  induction t with
  | nil => rfl
  | cons c t ih =>
    obtain ⟨hc, ht⟩ := List.forall_mem_cons.mp h
    rw [Text.byteSize_cons, utf8Size_of_isDigit hc, ih ht, List.length_cons, Nat.add_comm]

theorem utf8Size_of_countFlag? (h : (countFlag? c).isSome) : c.utf8Size = 1 := by
  unfold countFlag? at h
  split at h
  case h_5 => cases h
  all_goals rfl

theorem isAsciiBlank_cases (h : isAsciiBlank c) :
    c = ' ' ∨ c = '\t' ∨ c = '\n' ∨ c = '\x0c' ∨ c = '\r' := by
  simpa [isAsciiBlank, or_assoc] using h

theorem utf8Size_of_plainFlag? (h : (plainFlag? c).isSome) : c.utf8Size = 1 := by
  unfold plainFlag? at h
  split at h
  case h_11 =>
    split at h
    case isTrue hblank =>
      rcases isAsciiBlank_cases hblank with rfl | rfl | rfl | rfl | rfl <;> rfl
    case isFalse => cases h
  all_goals rfl

/-- A flag and its digits are single bytes. -/
theorem exists_of_flag {apply : CellFormat → CellFormat} {digits : Text}
    (h : flag c t = .ok (apply, digits)) :
    ∃ u, t = digits ++ u ∧ Text.byteSize (c :: digits) = 1 + digits.length := by
  unfold flag at h
  split at h
  case h_1 hcount =>
    have hc := utf8Size_of_countFlag? (Option.isSome_of_eq_some hcount)
    dsimp only at h
    split at h
    case h_1 =>
      cases h
      have hdigits := byteSize_of_isDigit (t := t.takeWhile Char.isDigit)
        fun c => List.mem_takeWhile_imp
      exact ⟨t.dropWhile Char.isDigit, List.takeWhile_append_dropWhile.symm,
        by rw [Text.byteSize_cons, hc, hdigits]⟩
    case h_2 => cases h
  case h_2 =>
    split at h
    case h_1 hplain =>
      cases h
      exact ⟨t, rfl, utf8Size_of_plainFlag? (Option.isSome_of_eq_some hplain)⟩
    case h_2 => cases h

/-! ## Flags in turn -/

theorem mergeFrom_later (f : CellFormat) (bytes offset : ℕ) (t : Text) :
    f.mergeFrom (bytes + offset) t = (f.mergeFrom offset t).mapError (Fault.later bytes) := by
  induction hlength : t.length using Nat.strong_induction_on generalizing f offset t with
  | _ n ih =>
    subst hlength
    cases t with
    | nil =>
      rw [mergeFrom_nil, mergeFrom_nil]
      rfl
    | cons c t =>
      by_cases hc : c = '%'
      · rw [hc, mergeFrom_pattern, mergeFrom_pattern, Printf.read_later, mapError_map]
      · rw [mergeFrom_flag hc, mergeFrom_flag hc]
        cases flag c t with
        | error problem => rfl
        | ok x =>
          dsimp only
          rw [Nat.add_assoc]
          exact ih _ (by simp) _ _ _ rfl

theorem mergeFrom_append (ha : '%' ∉ a) (hb : ∀ c ∈ b.head?, c.isDigit = false) (f : CellFormat)
    (offset : ℕ) : f.mergeFrom offset (a ++ b) =
      f.mergeFrom offset a >>= fun g => g.mergeFrom (offset + Text.byteSize a) b := by
  -- a flag takes its digits along, so that the induction is on the length of the first text
  induction hlength : a.length using Nat.strong_induction_on generalizing f offset a with
  | _ n ih =>
    subst hlength
    cases a with
    | nil =>
      rw [mergeFrom_nil]
      rfl
    | cons c a =>
      rw [List.mem_cons, not_or] at ha
      rw [List.cons_append, mergeFrom_flag (Ne.symm ha.1), mergeFrom_flag (Ne.symm ha.1),
        flag_append hb]
      cases hflag : flag c a with
      | error problem => rfl
      | ok x =>
        obtain ⟨apply, digits⟩ := x
        obtain ⟨u, rfl, hsize⟩ := exists_of_flag hflag
        dsimp only
        rw [List.append_assoc, List.drop_left, List.drop_left,
          ih _ (by simp) (fun h => ha.2 (List.mem_append_right _ h)) _ _ rfl,
          ← List.cons_append, Text.byteSize_append, hsize, Nat.add_assoc]

theorem merge_append (ha : '%' ∉ a) (hb : ∀ c ∈ b.head?, c.isDigit = false) (f : CellFormat) :
    f.merge (a ++ b) =
      f.merge a >>= fun g => (g.merge b).mapError (Fault.later (Text.byteSize a)) := by
  have hlater (g : CellFormat) : g.mergeFrom (0 + Text.byteSize a) b =
      (g.merge b).mapError (Fault.later (Text.byteSize a)) := by
    rw [Nat.zero_add]
    exact mergeFrom_later g _ 0 b
  simp only [merge, mergeFrom_append ha hb, hlater]

/-! ## What is wrong, wherever it is -/

/-- Merging as a spec reports it, without the place of a fault. -/
def mergeProblem (f : CellFormat) (t : Text) : Except FormatProblem CellFormat :=
  (f.merge t).mapError Fault.problem

theorem problem_mergeFrom (f : CellFormat) (offset : ℕ) (t : Text) :
    (f.mergeFrom offset t).mapError Fault.problem = f.mergeProblem t := by
  have hlater := mergeFrom_later f offset 0 t
  rw [Nat.add_zero] at hlater
  rw [hlater, mergeProblem, merge]
  cases f.mergeFrom 0 t <;> rfl

theorem mergeProblem_append (ha : '%' ∉ a) (hb : ∀ c ∈ b.head?, c.isDigit = false)
    (f : CellFormat) :
    f.mergeProblem (a ++ b) = f.mergeProblem a >>= fun g => g.mergeProblem b := by
  rw [mergeProblem, mergeProblem, merge, mergeFrom_append ha hb, ← merge]
  cases f.merge a with
  | error fault => rfl
  | ok g => exact problem_mergeFrom g _ b

theorem flag_of_isAsciiBlank (h : isAsciiBlank c) (t : Text) : flag c t = .ok (id, []) := by
  rcases isAsciiBlank_cases h with rfl | rfl | rfl | rfl | rfl <;> rfl

theorem mergeProblem_blanks {w : Text} (h : ∀ c ∈ w, isAsciiBlank c) (f : CellFormat) (t : Text) :
    f.mergeProblem (w ++ t) = f.mergeProblem t := by
  induction w with
  | nil => rfl
  | cons c w ih =>
    obtain ⟨hc, hw⟩ := List.forall_mem_cons.mp h
    have hpercent : c ≠ '%' := by
      rintro rfl
      cases hc
    rw [List.cons_append, mergeProblem, merge, mergeFrom_flag hpercent, flag_of_isAsciiBlank hc,
      ← ih hw]
    exact problem_mergeFrom f _ (w ++ t)

end CellFormat

namespace ColumnSpec

variable {a b t : Text}

/-! ## Segments of a spec -/

theorem trim_ne_nil_of_isFormat (h : isFormat t) : Text.trim t ≠ [] := by
  intro hnil
  rw [isFormat, hnil] at h
  cases h

theorem addSegment_of_isFormat (h : isFormat t) (s : ColumnSpec) :
    s.addSegment (Text.trim t) =
      ((s.format.mergeProblem (Text.trim t)).map fun format => { s with format := format }).mapError
        SpecProblem.format := by
  unfold isFormat at h
  rw [CellFormat.mergeProblem]
  generalize Text.trim t = u at h ⊢
  split at h
  case h_4 =>
    rw [addSegment, Option.isNone_iff_eq_none.mp h]
    · dsimp only
      cases s.format.merge u <;> rfl
    all_goals assumption
  all_goals cases h

/-- Two format segments that are one segment when nothing stands between them, where the white space
at the cut, which segments lose at their ends, says nothing to the flags either. -/
structure CutsFormat (a b : Text) : Prop where
  left : isFormat a
  right : isFormat b
  whole : isFormat (a ++ b)
  blanks : ∀ c ∈ a.rtakeWhile Text.isWhite ++ b.takeWhile Text.isWhite, CellFormat.isAsciiBlank c

theorem CutsFormat.exists_trim (h : CutsFormat a b) (hb : ∀ c ∈ b.head?, c.isDigit = false) :
    ∃ w, (∀ c ∈ w, CellFormat.isAsciiBlank c) ∧
      (∀ c ∈ (w ++ Text.trim b).head?, c.isDigit = false) ∧
      Text.trim (a ++ b) = Text.trim a ++ (w ++ Text.trim b) := by
  have hbne := trim_ne_nil_of_isFormat h.right
  obtain ⟨before, u, v, after, hu, hv, ha', hb', htrim⟩ :=
    Text.exists_trim_append (trim_ne_nil_of_isFormat h.left) hbne
  have hblanks : ∀ c ∈ u ++ v, CellFormat.isAsciiBlank c := by
    intro c hc
    apply h.blanks
    rcases List.mem_append.mp hc with hc | hc
    · apply List.mem_append_left
      rw [ha', List.rtakeWhile, List.reverse_append, List.takeWhile_append_of_pos]
      · simp [hc]
      · exact fun c hc => Text.isBlank_iff.mp hu c (List.mem_reverse.mp hc)
    · apply List.mem_append_right
      rw [hb', List.append_assoc, List.takeWhile_append_of_pos (Text.isBlank_iff.mp hv)]
      exact List.mem_append_left _ hc
  refine ⟨u ++ v, hblanks, ?_, by rw [htrim, List.append_assoc]⟩
  cases hw : u ++ v with
  | nil =>
    rw [(List.append_eq_nil_iff.mp hw).2, List.nil_append] at hb'
    rwa [hb', List.head?_append_of_ne_nil _ hbne] at hb
  | cons c w =>
    rintro c' ⟨⟩
    have hc := hblanks c (by simp [hw])
    rcases CellFormat.isAsciiBlank_cases hc with rfl | rfl | rfl | rfl | rfl <;> rfl

theorem addSegments_cut (ha : '%' ∉ a) (hb : ∀ c ∈ b.head?, c.isDigit = false)
    (h : CutsFormat a b) (s : ColumnSpec) (after : List Text) :
    s.addSegments ((a ++ b) :: after) = s.addSegments (a :: b :: after) := by
  obtain ⟨w, hw, hhead, htrim⟩ := h.exists_trim hb
  have hmerge : s.format.mergeProblem (Text.trim (a ++ b)) =
      s.format.mergeProblem (Text.trim a) >>= fun g => g.mergeProblem (Text.trim b) := by
    rw [htrim, CellFormat.mergeProblem_append (fun hmem => ha (Text.mem_of_mem_trim hmem)) hhead]
    simp only [CellFormat.mergeProblem_blanks hw]
  rw [addSegments, addSegment_of_isFormat h.whole, hmerge, addSegments,
    addSegment_of_isFormat h.left]
  cases s.format.mergeProblem (Text.trim a) with
  | error problem => rfl
  | ok g =>
    change _ = ColumnSpec.addSegments { s with format := g } (b :: after)
    rw [addSegments, addSegment_of_isFormat h.right]
    rfl

/-- A text of flags can be cut wherever no digits go on: merging the parts in turn gives what
merging the whole gives, faults and their places included, and so it does not matter to a spec over
how many segments its flags are spread. -/
theorem merge_parts (ha : '%' ∉ a) (hb : ∀ c ∈ b.head?, c.isDigit = false) :
    (∀ f : CellFormat, f.merge (a ++ b) =
      f.merge a >>= fun g => (g.merge b).mapError (Fault.later (Text.byteSize a))) ∧
      (CutsFormat a b → ∀ (s : ColumnSpec) (before after : List Text),
        s.addSegments (before ++ (a ++ b) :: after) =
          s.addSegments (before ++ a :: b :: after)) := by
  refine ⟨CellFormat.merge_append ha hb, fun h s before after => ?_⟩
  rw [addSegments_append, addSegments_append]
  simp only [addSegments_cut ha hb h]

/-- The cut is between two blanks, and the second part overrides a flag of the first, has a pattern,
and ends with a conversion that there is not. -/
theorem merge_parts_between_blanks :
    let a := "f2p3 ".toList
    let b := "\te4N%+08.2f µ".toList
    let b' := b ++ "%q".toList
    let format : CellFormat := {
      floatStyle := some (.engineering 4), precision := some 3, numbersOnly := true
      printf := some [.conversion ⟨⟨false, true, false, true, false⟩, 8, some 2, .fixed⟩,
        .literal " µ".toList] }
    ('%' ∉ a ∧ (∀ c ∈ b.head?, c.isDigit = false) ∧ CutsFormat a b) ∧
      CellFormat.merge {} (a ++ b) = .ok format ∧
      CellFormat.merge {} (a ++ b') = .error ⟨.unknownConversion 'q', 5 + 15⟩ ∧
      ∀ s : ColumnSpec, s.addSegments [['E'], a ++ b, "^n".toList] =
        s.addSegments [['E'], a, b, "^n".toList] := by
  intro a b b' format
  have ha : '%' ∉ a := by
    dsimp only [a]
    decide +kernel
  have hb : ∀ c ∈ b.head?, c.isDigit = false := by
    rintro c ⟨⟩
    rfl
  have hcut : CutsFormat a b := by
    refine ⟨?_, ?_, ?_, List.all_eq_true.mp ?_⟩ <;> dsimp only [a, b] <;> decide +kernel
  have hb' : ∀ c ∈ b'.head?, c.isDigit = false := by
    rintro c ⟨⟩
    rfl
  refine ⟨⟨ha, hb, hcut⟩, ?_, ?_, fun s => ?_⟩
  · exact ((merge_parts ha hb).1 {}).trans (by decide +kernel)
  · exact ((merge_parts ha hb').1 {}).trans (by decide +kernel)
  · exact (merge_parts ha hb).2 hcut s [['E']] ["^n".toList]

end ColumnSpec

end Rollup
