import Rollup.Proofs.Format.Conversions

/-! # The grammar of patterns

A pattern is read if and only if it is a sequence of plain characters, doubled percent signs and
conversions, and it gives these in order. Otherwise the fault is at the first character with which
no conversion goes on, or at the percent sign of a conversion that the text does not end.
-/

namespace Rollup.Printf

/-! ## Patterns as they are written -/

/-- A text of plain characters, doubled percent signs and conversions. -/
inductive IsSequence : Text → Prop
  | nil : IsSequence []
  | plain {c : Char} {t : Text} (hc : c ≠ '%') (ht : IsSequence t) : IsSequence (c :: t)
  | percent {t : Text} (ht : IsSequence t) : IsSequence ('%' :: '%' :: t)
  | conversion {h : Head} {letter : Char} {t : Text} (hh : h.Spelled) (hletter : letter ∈ letters)
      (ht : IsSequence t) : IsSequence ('%' :: (h.text ++ letter :: t))

/-- A plain text in a pattern, where every percent sign is written twice. -/
def doubled (t : Text) : Text := t.flatMap fun c => if c = '%' then ['%', '%'] else [c]

/-- The text of a conversion, which says its flags, width, precision and kind. -/
inductive Conversion.WrittenAs : Conversion → Text → Prop
  | parts {h : Head} {letter : Char} {kind : Kind} (hh : h.Exact)
      (hkind : Kind.ofChar? letter = some kind) :
      WrittenAs
        { flags := ⟨'-' ∈ h.flags, '+' ∈ h.flags, ' ' ∈ h.flags, '0' ∈ h.flags, '#' ∈ h.flags⟩
          width := Text.digitsToNat h.width
          precision := h.precision.map Text.digitsToNat
          kind := kind }
        ('%' :: (h.text ++ [letter]))

inductive Piece.WrittenAs : Piece → Text → Prop
  | literal {t : Text} (hne : t ≠ []) : WrittenAs (.literal t) (doubled t)
  | conversion {c : Conversion} {t : Text} (hc : c.WrittenAs t) : WrittenAs (.conversion c) t

def Piece.isLiteral : Piece → Bool
  | literal _ => true
  | conversion _ => false

/-- The text of pieces in order, of which no two plain texts follow each other. -/
inductive WrittenAs : Printf → Text → Prop
  | nil : WrittenAs [] []
  | cons {piece : Piece} {p : Printf} {t u : Text} (hpiece : piece.WrittenAs t)
      (hapart : ∀ next ∈ p.head?, ¬ (piece.isLiteral ∧ next.isLiteral)) (hp : WrittenAs p u) :
      WrittenAs (piece :: p) (t ++ u)

/-- How a text at a byte offset is no pattern: behind a sequence, a conversion goes up to the end of
the text, or up to a character that goes on with no conversion. -/
inductive FailsAt (offset : ℕ) : Text → Fault FormatProblem → Prop
  | incomplete {t : Text} {h : Head} (ht : IsSequence t) (hh : h.Spelled) :
      FailsAt offset (t ++ '%' :: h.text) ⟨.incompleteConversion, offset + Text.byteSize t⟩
  | unknown {t rest : Text} {h : Head} {c : Char} (ht : IsSequence t) (hh : h.Spelled)
      (hlonger : ¬ IsHead (h.text ++ [c])) (hpercent : h.text = [] → c ≠ '%')
      (hletter : c ∉ letters) :
      FailsAt offset (t ++ '%' :: (h.text ++ c :: rest))
        ⟨.unknownConversion c, offset + Text.byteSize (t ++ '%' :: h.text)⟩

/-! ## Sequences -/

section Sequences

variable {t u : Text} {offset : ℕ}

theorem IsSequence.append (ht : IsSequence t) (hu : IsSequence u) : IsSequence (t ++ u) := by
  induction ht with
  | nil => exact hu
  | plain hc _ ih => exact .plain hc ih
  | percent _ ih => exact .percent ih
  | conversion hh hletter _ ih =>
    rw [List.cons_append, List.append_assoc, List.cons_append]
    exact .conversion hh hletter ih

theorem IsSequence.doubled (t : Text) : IsSequence (doubled t) := by
  induction t with
  | nil => exact .nil
  | cons c t ih =>
    by_cases hc : c = '%'
    · subst hc
      exact .percent ih
    · have hcons : Printf.doubled (c :: t) = c :: Printf.doubled t := by simp [Printf.doubled, hc]
      rw [hcons]
      exact .plain hc ih

theorem Conversion.WrittenAs.isSequence {c : Conversion} (h : c.WrittenAs t) : IsSequence t := by
  cases h with
  | parts hh hkind =>
    exact .conversion hh.toSpelled (isSome_ofChar?_iff.mp (by rw [hkind]; rfl)) .nil

theorem WrittenAs.isSequence {p : Printf} (h : WrittenAs p t) : IsSequence t := by
  induction h with
  | nil => exact .nil
  | cons hpiece _ _ ih =>
    cases hpiece with
    | literal => exact (IsSequence.doubled _).append ih
    | conversion hc => exact hc.isSequence.append ih

/-- A sequence is read, and what follows it is read by itself. -/
theorem IsSequence.exists_read_append (ht : IsSequence t) : ∃ before : Printf → Printf,
    ∀ offset u, read offset (t ++ u) = (read (offset + Text.byteSize t) u).map before := by
  induction ht with
  | nil =>
    refine ⟨id, fun offset u => ?_⟩
    rw [List.nil_append, Text.byteSize_nil, Nat.add_zero]
    cases read offset u <;> rfl
  | @plain c t hc _ ih =>
    obtain ⟨before, hbefore⟩ := ih
    refine ⟨consLiteral c ∘ before, fun offset u => ?_⟩
    rw [List.cons_append, read_plain hc, hbefore, Text.byteSize_cons, Nat.add_assoc]
    cases read _ u <;> rfl
  | percent _ ih =>
    obtain ⟨before, hbefore⟩ := ih
    refine ⟨consLiteral '%' ∘ before, fun offset u => ?_⟩
    rw [List.cons_append, List.cons_append, read_percent, hbefore, byteSize_percent,
      byteSize_percent, ← Nat.add_assoc, ← Nat.add_assoc]
    cases read _ u <;> rfl
  | conversion hh hletter _ ih =>
    obtain ⟨before, hbefore⟩ := ih
    obtain ⟨h, hh, htext⟩ := hh.exists_exact
    obtain ⟨kind, hkind⟩ := Option.isSome_iff_exists.mp (isSome_ofChar?_iff.mpr hletter)
    refine ⟨(.conversion (h.conversion kind) :: before ·), fun offset u => ?_⟩
    rw [← htext, List.cons_append, List.append_assoc, List.cons_append, read_conversion hh hkind,
      hbefore, Nat.add_assoc, ← Text.byteSize_append, List.cons_append, ← List.append_cons]
    cases read _ u <;> rfl

/-! ## Faults -/

theorem FailsAt.append (ht : IsSequence t) {fault : Fault FormatProblem}
    (h : FailsAt (offset + Text.byteSize t) u fault) : FailsAt offset (t ++ u) fault := by
  cases h with
  | incomplete hu hh =>
    rw [Nat.add_assoc, ← Text.byteSize_append, ← List.append_assoc]
    exact .incomplete (ht.append hu) hh
  | unknown hu hh hlonger hpercent hletter =>
    rw [Nat.add_assoc, ← Text.byteSize_append, ← List.append_assoc, ← List.append_assoc]
    exact .unknown (ht.append hu) hh hlonger hpercent hletter

theorem failsAt_of_read {fault : Fault FormatProblem} (h : read offset t = .error fault) :
    FailsAt offset t fault := by
  induction path t generalizing offset with
  | nil =>
    rw [read] at h
    cases h
  | @plain c t hc _ ih =>
    rw [read_plain hc] at h
    have hone : IsSequence [c] := .plain hc .nil
    exact .append hone (ih (eq_error_of_map_eq_error h))
  | percent _ ih =>
    rw [read_percent] at h
    exact .append (.percent .nil) (ih (eq_error_of_map_eq_error h))
  | incomplete hh =>
    rw [read_incomplete hh] at h
    cases h
    exact .incomplete .nil hh.toSpelled
  | unknown hh hstops hpercent hletter =>
    rw [read_unknown hh hstops hpercent hletter] at h
    cases h
    rw [Nat.add_assoc, ← byteSize_percent]
    exact .unknown (t := []) .nil hh.toSpelled (hh.stops_iff.mp hstops) hpercent hletter
  | conversion hh hkind _ ih =>
    rw [read_conversion hh hkind] at h
    have hletter := isSome_ofChar?_iff.mp (Option.isSome_of_eq_some hkind)
    rw [List.append_cons]
    exact .append (.conversion hh.toSpelled hletter .nil) (ih (eq_error_of_map_eq_error h))

theorem FailsAt.read_eq {fault : Fault FormatProblem} (h : FailsAt offset t fault) :
    read offset t = .error fault := by
  cases h with
  | incomplete ht hh =>
    obtain ⟨before, hbefore⟩ := ht.exists_read_append
    obtain ⟨h, hh, htext⟩ := hh.exists_exact
    rw [hbefore, ← htext, read_incomplete hh]
    rfl
  | unknown ht hh hlonger hpercent hletter =>
    obtain ⟨before, hbefore⟩ := ht.exists_read_append
    obtain ⟨h, hh, htext⟩ := hh.exists_exact
    rw [← htext] at hlonger hpercent ⊢
    rw [hbefore, read_unknown hh (hh.stops_iff.mpr hlonger) hpercent hletter, Text.byteSize_append,
      byteSize_percent, ← Nat.add_assoc, ← Nat.add_assoc]
    rfl

/-! ## Pieces -/

theorem Head.conversion_eq (h : Head) (kind : Kind) : h.conversion kind =
    { flags := ⟨'-' ∈ h.flags, '+' ∈ h.flags, ' ' ∈ h.flags, '0' ∈ h.flags, '#' ∈ h.flags⟩
      width := Text.digitsToNat h.width
      precision := h.precision.map Text.digitsToNat
      kind := kind } := by
  simp [conversion, Flags.ofText, Text.contains, List.any_beq']

theorem doubled_cons (c : Char) (t : Text) : doubled (c :: t) = doubled [c] ++ doubled t := by
  rw [doubled, doubled, doubled, ← List.flatMap_append, List.singleton_append]

theorem read_doubled (c : Char) (offset : ℕ) (t : Text) :
    read offset (doubled [c] ++ t) =
      (read (offset + Text.byteSize (doubled [c])) t).map (consLiteral c) := by
  by_cases hc : c = '%'
  · subst hc
    exact read_percent offset t
  · have hone : doubled [c] = [c] := by simp [doubled, hc]
    rw [hone]
    exact read_plain hc offset t

theorem WrittenAs.consLiteral {p : Printf} (h : WrittenAs p t) (c : Char) :
    WrittenAs (consLiteral c p) (doubled [c] ++ t) := by
  have hone : (Piece.literal [c]).WrittenAs (doubled [c]) := .literal (List.cons_ne_nil c [])
  cases h with
  | nil => exact .cons hone (by simp) .nil
  | @cons piece p s u hpiece hapart hp =>
    cases hpiece with
    | @literal s hne =>
      rw [← List.append_assoc, ← doubled_cons]
      exact .cons (.literal (List.cons_ne_nil c s)) hapart hp
    | @conversion conversion _ hc =>
      have hp' : WrittenAs (.conversion conversion :: p) (s ++ u) :=
        .cons (.conversion hc) hapart hp
      exact .cons hone (by simp [Piece.isLiteral]) hp'

theorem writtenAs_of_read {p : Printf} (h : read offset t = .ok p) : WrittenAs p t := by
  induction path t generalizing offset p with
  | nil =>
    rw [read] at h
    cases h
    exact .nil
  | @plain c t hc _ ih =>
    rw [read_plain hc] at h
    obtain ⟨p, hp, rfl⟩ := exists_of_map_eq_ok h
    have hcons := (ih hp).consLiteral c
    have hone : doubled [c] = [c] := by simp [doubled, hc]
    rwa [hone] at hcons
  | percent _ ih =>
    rw [read_percent] at h
    obtain ⟨p, hp, rfl⟩ := exists_of_map_eq_ok h
    exact (ih hp).consLiteral '%'
  | incomplete hh =>
    rw [read_incomplete hh] at h
    cases h
  | unknown hh hstops hpercent hletter =>
    rw [read_unknown hh hstops hpercent hletter] at h
    cases h
  | conversion hh hkind _ ih =>
    rw [read_conversion hh hkind] at h
    obtain ⟨p, hp, rfl⟩ := exists_of_map_eq_ok h
    rw [List.append_cons, Head.conversion_eq]
    exact .cons (.conversion (.parts hh hkind)) (by simp [Piece.isLiteral]) (ih hp)

theorem read_literal {p : Printf} (hapart : ∀ next ∈ p.head?, ¬ next.isLiteral) (hne : t ≠ [])
    (hp : read (offset + Text.byteSize (doubled t)) u = .ok p) :
    read offset (doubled t ++ u) = .ok (.literal t :: p) := by
  induction t generalizing offset with
  | nil => exact absurd rfl hne
  | cons c t ih =>
    rw [doubled_cons, List.append_assoc, read_doubled]
    rw [doubled_cons, Text.byteSize_append, ← Nat.add_assoc] at hp
    cases t with
    | nil =>
      have hlone : consLiteral c p = .literal [c] :: p := by
        cases p with
        | nil => rfl
        | cons next p =>
          cases next with
          | literal => exact absurd rfl (hapart _ rfl)
          | conversion => rfl
      have hrest : read (offset + Text.byteSize (doubled [c])) u = .ok p := hp
      change (read _ u).map (consLiteral c) = _
      rw [hrest, Except.map, hlone]
    | cons d t =>
      rw [ih (List.cons_ne_nil d t) hp]
      rfl

theorem WrittenAs.read_eq {p : Printf} (h : WrittenAs p t) (offset : ℕ) :
    read offset t = .ok p := by
  induction h generalizing offset with
  | nil => rw [read]
  | cons hpiece hapart _ ih =>
    cases hpiece with
    | literal hne =>
      exact read_literal (fun next hnext hliteral => hapart next hnext ⟨rfl, hliteral⟩) hne (ih _)
    | conversion hc =>
      cases hc with
      | parts hh hkind =>
        rw [List.cons_append, ← List.append_cons, read_conversion hh hkind, ih, Head.conversion_eq]
        rfl

theorem read_pattern_iff (offset : ℕ) (t : Text) :
    ((∃ p, read offset t = .ok p) ↔ IsSequence t) ∧
    (∀ p, read offset t = .ok p ↔ WrittenAs p t) ∧
    ∀ fault, read offset t = .error fault ↔ FailsAt offset t fault := by
  have hok (p : Printf) : read offset t = .ok p ↔ WrittenAs p t :=
    ⟨writtenAs_of_read, fun h => h.read_eq offset⟩
  refine ⟨⟨?_, fun ht => ?_⟩, hok, fun fault => ⟨failsAt_of_read, FailsAt.read_eq⟩⟩
  · rintro ⟨p, hp⟩
    exact ((hok p).mp hp).isSequence
  · obtain ⟨before, hbefore⟩ := ht.exists_read_append
    have hread := hbefore offset []
    rw [List.append_nil, read] at hread
    exact ⟨_, hread⟩

/-- The zero is a flag, a second percent sign is plain text, and a point without digits is zero. -/
example : read 0 "%%%05.x%%".toList = .ok [.literal ['%'],
    .conversion ⟨⟨false, false, false, true, false⟩, 5, some 0, .hexadecimal false⟩,
    .literal ['%']] := by
  decide +kernel

end Sequences

end Rollup.Printf
