import Rollup.Proofs.Filter.Substitution

/-! # The parts of a script

A script is read from left to right. At every place there is a literal, a mention, or else a single
character, and this determines the parts. Substitution goes through them in turn.
-/

namespace Rollup.Filter

open Text (byteSize)

/-! ## Where a mention stands -/

/-- The mention is what a script has between the character before it and the rest. Digits and names
go as far as they can, and a name starts a word. -/
inductive Mention.Stands (before : Option Char) (rest : Text) : Mention → Prop
  | quoted {name : Text} (hname : '\'' ∉ name) (hplain : '"' ∉ name) :
      Stands before rest (.quoted name)
  | position {digits : Text} (hne : digits ≠ []) (hdigits : ∀ d ∈ digits, d.isDigit)
      (hrest : ∀ d ∈ rest.head?, d.isDigit = false) : Stands before rest (.position digits)
  | bare {c : Char} {name : Text} (hstart : isNameStart c) (hname : ∀ d ∈ name, isNamePart d)
      (hrest : ∀ d ∈ rest.head?, isNamePart d = false)
      (hbefore : ∀ d ∈ before, Text.isWord d = false) :
      Stands before rest (.bare (c :: name) (before = some '.') (opensCall rest))

/-- What follows a text outside literals: a literal, or nothing. -/
def AtLiteral (rest : Text) : Prop := ∀ c ∈ rest.head?, c = '"'

section

variable {before : Option Char} {c : Char} {m : Mention} {t w rest : Text}

theorem opensCall_append (hrest : AtLiteral rest) (w : Text) :
    opensCall (w ++ rest) = opensCall w := by
  induction w with
  | nil =>
    cases rest with
    | nil => rfl
    | cons c rest =>
      obtain rfl := hrest c rfl
      rfl
  | cons c w ih =>
    unfold opensCall Text.trimStart at ih ⊢
    rw [List.cons_append, List.dropWhile_cons, List.dropWhile_cons]
    split
    · exact ih
    · rfl

theorem AtLiteral.head?_append (hrest : AtLiteral rest) {p : Char → Bool} (hquote : p '"' = false) :
    (∀ c ∈ (w ++ rest).head?, p c = false) ↔ ∀ c ∈ w.head?, p c = false := by
  cases w with
  | nil =>
    refine iff_of_true (fun c hc => ?_) (by simp)
    rw [hrest c hc, hquote]
  | cons d w => rfl

theorem isNamePart_of_isNameStart (hc : isNameStart c) : isNamePart c := by
  simp only [isNameStart, Bool.or_eq_true] at hc
  rcases hc with hc | hc <;> simp [isNamePart, hc]

theorem Mention.Stands.not_mem (h : m.Stands before rest) : '"' ∉ m.text := by
  have hpart : isNamePart '"' = false := by decide
  cases h with
  | quoted hname hplain => simpa [Mention.text] using hplain
  | position hne hdigits hrest =>
    simp only [Mention.text, List.mem_cons, not_or]
    exact ⟨by decide, fun h => absurd (hdigits _ h) (by decide)⟩
  | @bare c name hstart hname hrest hbefore =>
    simp only [Mention.text, List.mem_cons, not_or]
    refine ⟨?_, fun h => by simp [hname _ h] at hpart⟩
    rintro rfl
    simp [isNamePart_of_isNameStart hstart] at hpart

theorem mention?_of_stands (h : m.Stands before (w ++ rest)) (hrest : AtLiteral rest) :
    mention? before (m.text ++ w) = some m := by
  cases h with
  | @quoted name hname hplain =>
    have hscript : (Mention.quoted name).text ++ w = '\'' :: (name ++ '\'' :: w) := by
      simp [Mention.text]
    rw [hscript, mention?_quoted before hname]
  | @position digits hne hdigits hend =>
    rw [hrest.head?_append (by decide)] at hend
    have hinside : (digits ++ w).takeWhile Char.isDigit = digits :=
      Text.takeWhile_append hdigits hend
    simp [Mention.text, mention?, hinside, hne]
  | @bare c name hstart hname hend hbefore =>
    rw [hrest.head?_append (by decide)] at hend
    have hinside : (name ++ w).takeWhile isNamePart = name := Text.takeWhile_append hname hend
    have hquote : c ≠ '\'' := by
      rintro rfl
      exact absurd hstart (by decide)
    have hdollar : c ≠ '$' := by
      rintro rfl
      exact absurd hstart (by decide)
    have hword : before.any Text.isWord = false := by
      cases before with
      | none => rfl
      | some d => exact hbefore d rfl
    simp [Mention.text, mention?, hquote, hdollar, hstart, hword, hinside, opensCall_append hrest]

theorem stands_of_mention? (h : mention? before (c :: t) = some m) (ht : '"' ∉ c :: t)
    (hrest : AtLiteral rest) : m.Stands before (t.drop (m.text.length - 1) ++ rest) := by
  simp only [List.mem_cons, not_or] at ht
  simp only [mention?] at h
  split_ifs at h with hc hlength hdollar hdigits hstart
  · obtain rfl := Option.some.inj h
    refine .quoted (Text.not_mem_takeWhile_ne _ _) fun hmem => ht.2 ?_
    exact List.takeWhile_subset _ hmem
  · obtain rfl := Option.some.inj h
    refine .position hdigits (fun d hd => List.mem_takeWhile_imp hd) ?_
    rw [hrest.head?_append (by decide)]
    have hdrop := Text.drop_length_takeWhile Char.isDigit t
    simp only [Mention.text, List.length_cons, Nat.add_sub_cancel, hdrop]
    exact fun c => Text.of_mem_head?_dropWhile
  · obtain rfl := Option.some.inj h
    have hdrop := Text.drop_length_takeWhile isNamePart t
    simp only [Mention.text, List.length_cons, Nat.add_sub_cancel]
    rw [← opensCall_append hrest]
    simp only [Bool.and_eq_true, Bool.not_eq_true'] at hstart
    refine .bare hstart.1 (fun d hd => List.mem_takeWhile_imp hd) ?_ ?_
    · rw [hrest.head?_append (by decide), hdrop]
      exact fun c => Text.of_mem_head?_dropWhile
    · rintro d rfl
      exact hstart.2

theorem Mention.Stands.text_ne_nil (h : m.Stands before rest) : m.text ≠ [] := by
  cases h <;> simp [Mention.text]

/-- At most one mention stands at a place. -/
theorem Mention.Stands.unique {m' : Mention} {rest' : Text} (h : m.Stands before rest)
    (h' : m'.Stands before rest') (ht : m.text ++ rest = m'.text ++ rest') :
    m = m' ∧ rest = rest' := by
  have hfind {n : Mention} {v : Text} (hn : n.Stands before v) :
      mention? before ((n.text ++ v).takeWhile (· != '"')) = some n := by
    have hv : v = v.takeWhile (· != '"') ++ v.dropWhile (· != '"') :=
      List.takeWhile_append_dropWhile.symm
    have hplain : ∀ d ∈ n.text, d != '"' := by
      intro d hd
      simp only [bne_iff_ne]
      rintro rfl
      exact hn.not_mem hd
    rw [List.takeWhile_append_of_pos hplain]
    have hquote : AtLiteral (v.dropWhile (· != '"')) :=
      fun d hd => Text.eq_of_mem_head?_dropWhile_ne hd
    exact mention?_of_stands (hv ▸ hn) hquote
  have hsame := hfind h
  rw [ht, hfind h'] at hsame
  obtain rfl := Option.some.inj hsame
  exact ⟨rfl, List.append_cancel_left ht⟩

end

/-! ## All parts -/

/-- The parts of a script from left to right. At every place a mention is taken if one stands there,
and else a character. The characters of a literal are never taken for a mention. -/
inductive IsParts : (before : Option Char) → (offset : ℕ) → Text → List Part → Prop
  | nil {before : Option Char} {offset : ℕ} : IsParts before offset [] []
  | mention {before : Option Char} {offset : ℕ} {m : Mention} {rest : Text} {ps : List Part}
      (hm : m.Stands before rest)
      (h : IsParts m.text.getLast? (offset + byteSize m.text) rest ps) :
      IsParts before offset (m.text ++ rest) (.mention m offset :: ps)
  | plain {before : Option Char} {offset : ℕ} {c : Char} {t : Text} {ps : List Part} (hc : c ≠ '"')
      (hnone : ∀ (m : Mention) rest, m.Stands before rest → c :: t ≠ m.text ++ rest)
      (h : IsParts (some c) (offset + c.utf8Size) t ps) :
      IsParts before offset (c :: t) (.plain c :: ps)
  | closed {before : Option Char} {offset : ℕ} {body rest : Text} {ps : List Part}
      (hbody : EscapesQuotes [] body) (hend : Even (trailingBackslashes body))
      (h : IsParts (some '"') (offset + byteSize ('"' :: body ++ ['"'])) rest ps) :
      IsParts before offset ('"' :: body ++ '"' :: rest)
        (('"' :: body ++ ['"']).map .plain ++ ps)
  | unclosed {before : Option Char} {offset : ℕ} {body : Text} (hbody : EscapesQuotes [] body) :
      IsParts before offset ('"' :: body) (('"' :: body).map .plain)

/-- The parts of a piece that starts at an offset. -/
def placedParts : ℕ × Piece → List Part
  | (offset, .outside t) => parts offset none t
  | (_, .literal t) => t.map .plain

def scriptParts (script : Text) : List Part := (placed 0 (cut script)).flatMap placedParts

section

variable {before : Option Char} {offset : ℕ} {t rest : Text} {ps : List Part}

/-- Before a literal, or at the end, it does not matter what came before. -/
theorem IsParts.atLiteral (h : IsParts before offset rest ps) (hrest : AtLiteral rest)
    (before' : Option Char) : IsParts before' offset rest ps := by
  cases h with
  | nil => exact .nil
  | mention hm h =>
    obtain ⟨c, u, htext⟩ := List.exists_cons_of_ne_nil hm.text_ne_nil
    have hquote : '"' ∉ _ := hm.not_mem
    rw [htext] at hrest hquote
    obtain rfl := hrest c rfl
    simp at hquote
  | plain hc => exact absurd (hrest _ rfl) hc
  | closed hbody hend h => exact .closed hbody hend h
  | unclosed hbody => exact .unclosed hbody

/-- At its start a piece does not depend on the quote that ends the literal before it. -/
theorem parts_of_before (hbefore : ∀ c ∈ before, c = '"') (offset : ℕ) (t : Text) :
    parts offset before t = parts offset none t := by
  cases t with
  | nil => rw [parts, parts]
  | cons c t =>
    have hsame : mention? before (c :: t) = mention? none (c :: t) := by
      cases before with
      | none => rfl
      | some d =>
        have hword : Text.isWord '"' = false := by decide
        obtain rfl := hbefore d rfl
        simp [mention?, hword]
    rw [parts, parts, hsame]

/-- A text without a double quote that stands before a literal and something else stands in front of
the literal. -/
theorem AtLiteral.exists_of_append_eq {u w : Text} (hrest : AtLiteral rest) (hu : '"' ∉ u)
    (h : t ++ rest = u ++ w) : ∃ v, t = u ++ v ∧ w = v ++ rest := by
  rcases List.append_eq_append_iff.mp h with ⟨v, rfl, rfl⟩ | hin
  · cases v with
    | nil => exact ⟨[], by simp, rfl⟩
    | cons d v =>
      obtain rfl := hrest d rfl
      simp at hu
  · exact hin

theorem isParts_append (ht : '"' ∉ t) (hrest : AtLiteral rest)
    (h : ∀ before, IsParts before (offset + byteSize t) rest ps) :
    IsParts before offset (t ++ rest) (parts offset before t ++ ps) := by
  fun_induction parts offset before t with
  | case1 => exact h _
  | case2 offset before c t hm ih =>
    have hc : c ≠ '"' := fun heq => ht (by simp [heq])
    refine .plain hc ?_ ?_
    · -- a mention that stands here lies in the text, where it would be found
      intro m w hw heq
      obtain ⟨v, hv, rfl⟩ := hrest.exists_of_append_eq (t := c :: t) hw.not_mem heq
      rw [hv, mention?_of_stands hw hrest] at hm
      cases hm
    · refine ih (fun hmem => ht (List.mem_cons_of_mem _ hmem)) ?_
      simpa [Nat.add_assoc] using h
  | case3 offset before c t m hm ih =>
    have htext := mention?_text hm
    have hstands := stands_of_mention? hm ht hrest
    rw [← htext] at ht h ⊢
    rw [List.append_assoc]
    refine .mention hstands (ih (fun hmem => ht (List.mem_append_right _ hmem)) ?_)
    simpa [Nat.add_assoc] using h

theorem IsCut.isParts {script : Text} {pieces : List Piece} (h : IsCut script pieces)
    (offset : ℕ) (hbefore : ∀ c ∈ before, c = '"') :
    IsParts before offset script ((placed offset pieces).flatMap placedParts) := by
  induction h generalizing before offset with
  | nil => exact .nil
  | outside hne ht hrest h ih =>
    rw [placed, List.flatMap_cons, placedParts, ← parts_of_before hbefore]
    have hnone : ∀ c ∈ (none : Option Char), c = '"' := by simp
    exact isParts_append ht hrest fun before => (ih _ hnone).atLiteral hrest before
  | closed hbody hend h ih => exact .closed hbody hend (ih _ (by simp))
  | unclosed hbody =>
    rw [placed, placed, List.flatMap_cons, List.flatMap_nil, List.append_nil]
    exact .unclosed hbody

theorem isParts_scriptParts (script : Text) : IsParts none 0 script (scriptParts script) :=
  (isCut_cut script).isParts 0 (by simp)

theorem Mention.Stands.text_ne_quote {m : Mention} {u : Text} (h : m.Stands before rest) :
    m.text ++ rest ≠ '"' :: u := by
  intro heq
  obtain ⟨c, v, htext⟩ := List.exists_cons_of_ne_nil h.text_ne_nil
  have hquote := h.not_mem
  rw [htext] at heq hquote
  obtain ⟨rfl, -⟩ := List.cons_eq_cons.mp heq
  simp at hquote

/-- A literal ends at one quote only. -/
theorem EscapesQuotes.eq_of_closes {body body' rest' : Text} (hbody : EscapesQuotes [] body)
    (hend : Even (trailingBackslashes body)) (hbody' : EscapesQuotes [] body')
    (hend' : Even (trailingBackslashes body')) (h : body ++ '"' :: rest = body' ++ '"' :: rest') :
    body = body' ∧ rest = rest' := by
  have hsplit := splitLiteral_closed hbody hend rest
  rw [h, splitLiteral_closed hbody' hend', Prod.mk.injEq, List.append_cancel_right_eq] at hsplit
  exact ⟨hsplit.1.symm, hsplit.2.symm⟩

theorem IsParts.unique {qs : List Part} (h : IsParts before offset t ps)
    (h' : IsParts before offset t qs) : ps = qs := by
  induction h generalizing qs with
  | nil =>
    generalize ht : ([] : Text) = t at h'
    cases h' with
    | nil => rfl
    | mention hm => simp [hm.text_ne_nil] at ht
    | _ => cases ht
  | @mention _ _ m rest ps hm h ih =>
    generalize ht : m.text ++ rest = t at h'
    cases h' with
    | nil => simp [hm.text_ne_nil] at ht
    | mention hm' h' =>
      obtain ⟨rfl, rfl⟩ := hm.unique hm' ht
      rw [ih h']
    | plain hc hnone => exact absurd ht.symm (hnone m rest hm)
    | closed | unclosed => exact absurd ht hm.text_ne_quote
  | @plain _ _ c t ps hc hnone h ih =>
    generalize ht : c :: t = u at h'
    cases h' with
    | nil => cases ht
    | mention hm => exact absurd ht (hnone _ _ hm)
    | plain hc' hnone' h' =>
      obtain ⟨rfl, rfl⟩ := List.cons_eq_cons.mp ht
      rw [ih h']
    | closed | unclosed => exact absurd (List.cons_eq_cons.mp ht).1 hc
  | @closed _ _ body rest ps hbody hend h ih =>
    generalize ht : '"' :: body ++ '"' :: rest = t at h'
    cases h' with
    | nil => cases ht
    | mention hm => exact absurd ht.symm hm.text_ne_quote
    | plain hc => exact absurd (List.cons_eq_cons.mp ht).1.symm hc
    | closed hbody' hend' h' =>
      obtain ⟨rfl, rfl⟩ := hbody.eq_of_closes hend hbody' hend' (List.cons_eq_cons.mp ht).2
      rw [ih h']
    | unclosed hbody' => exact absurd hend (hbody' body rest (List.cons_eq_cons.mp ht).2.symm)
  | @unclosed _ _ body hbody =>
    generalize ht : '"' :: body = t at h'
    cases h' with
    | nil => cases ht
    | mention hm => exact absurd ht.symm hm.text_ne_quote
    | plain hc => exact absurd (List.cons_eq_cons.mp ht).1.symm hc
    | closed _ hend' => exact absurd hend' (hbody _ _ (List.cons_eq_cons.mp ht).2)
    | unclosed hbody' =>
      obtain rfl := (List.cons_eq_cons.mp ht).2
      rfl

theorem flatMap_text_plain (t : Text) : (t.map Part.plain).flatMap Part.text = t := by
  simp [List.flatMap_map, Part.text]

theorem IsParts.flatMap_text (h : IsParts before offset t ps) : ps.flatMap Part.text = t := by
  induction h with
  | nil => rfl
  | mention hm h ih => rw [List.flatMap_cons, ih]; rfl
  | plain hc hnone h ih => rw [List.flatMap_cons, ih]; rfl
  | closed hbody hend h ih => rw [List.flatMap_append, ih, flatMap_text_plain]; simp
  | unclosed hbody => exact flatMap_text_plain _

theorem exists_of_plain_append {u : Text} {qs later : List Part} {m : Mention} {k : ℕ}
    (h : ps ++ .mention m k :: qs = u.map .plain ++ later) :
    ∃ after, ps = u.map .plain ++ after ∧ later = after ++ .mention m k :: qs := by
  rcases List.append_eq_append_iff.mp h with ⟨v, hu, hv⟩ | hin
  · cases v with
    | nil => exact ⟨[], by simpa using hu.symm, by simpa using hv.symm⟩
    | cons p v =>
      -- no character is the mention
      have hmem : p ∈ u.map Part.plain := by simp [hu]
      obtain ⟨c, -, rfl⟩ := List.mem_map.mp hmem
      cases hv
  · exact hin

/-- A mention among the parts stands in the script at its offset. -/
theorem IsParts.stands {qs : List Part} {m : Mention} {k : ℕ}
    (h : IsParts before offset t (ps ++ .mention m k :: qs)) :
    k = offset + byteSize (ps.flatMap Part.text) ∧
      m.Stands ((ps.flatMap Part.text).getLast?.or before) (qs.flatMap Part.text) := by
  have hlast {u v : Text} (hu : u ≠ []) (before : Option Char) :
      (u ++ v).getLast?.or before = v.getLast?.or u.getLast? := by
    rw [List.getLast?_append, Option.or_assoc, List.getLast?_eq_some_getLast hu, Option.some_or]
  generalize hparts : ps ++ .mention m k :: qs = parts at h
  induction h generalizing ps with
  | nil => simp at hparts
  | mention hm h ih =>
    rcases List.append_eq_cons_iff.mp hparts with ⟨rfl, heq⟩ | ⟨ps, rfl, heq⟩
    · cases heq
      rw [h.flatMap_text]
      exact ⟨rfl, hm⟩
    · obtain ⟨rfl, hstands⟩ := ih heq.symm
      rw [List.flatMap_cons, Part.text, hlast hm.text_ne_nil, Text.byteSize_append, Nat.add_assoc]
      exact ⟨rfl, hstands⟩
  | @plain _ _ c _ _ hc hnone h ih =>
    obtain ⟨ps, rfl, heq⟩ := exists_of_plain_append (u := [c]) hparts
    obtain ⟨rfl, hstands⟩ := ih heq.symm
    rw [List.flatMap_append, flatMap_text_plain, hlast (by simp), Text.byteSize_append,
      Nat.add_assoc]
    exact ⟨rfl, hstands⟩
  | @closed _ _ body _ _ hbody hend h ih =>
    obtain ⟨ps, rfl, heq⟩ := exists_of_plain_append hparts
    obtain ⟨rfl, hstands⟩ := ih heq.symm
    have hquote : ('"' :: body ++ ['"']).getLast? = some '"' := List.getLast?_concat
    rw [List.flatMap_append, flatMap_text_plain, hlast (by simp), hquote]
    exact ⟨by simp [Nat.add_assoc], hstands⟩
  | @unclosed _ _ body hbody =>
    have hnil := hparts.trans (List.append_nil _).symm
    obtain ⟨ps, rfl, heq⟩ := exists_of_plain_append hnil
    simp at heq

theorem isParts_iff {script : Text} : IsParts none 0 script ps ↔ ps = scriptParts script := by
  constructor
  · intro h
    exact h.unique (isParts_scriptParts script)
  · rintro rfl
    exact isParts_scriptParts script

end

/-! ## Substitution part by part -/

section

variable {m : Type → Type} [Monad m] [LawfulMonad m] (lookup : Reference → m (Option ℕ))

theorem mapM_substitutePart_plain (t : Text) :
    (t.map Part.plain).mapM (substitutePart lookup) = pure (t.map fun c => [c]) := by
  induction t with
  | nil => rfl
  | cons c t ih => simp [substitutePart, ih]

theorem substitutePieces_eq_mapM_parts (offset : ℕ) (pieces : List Piece) :
    substitutePieces lookup offset pieces = List.flatten <$>
      ((placed offset pieces).flatMap placedParts).mapM (substitutePart lookup) := by
  induction pieces generalizing offset with
  | nil => simp [substitutePieces, placed]
  | cons p pieces ih =>
    cases p with
    | literal t =>
      have hchars : (t.map fun c => [c]).flatten = t := by simp [← List.flatMap_def]
      rw [substitutePieces, ih, placed, List.flatMap_cons, placedParts, List.mapM_append,
        mapM_substitutePart_plain]
      simp [Piece.text, hchars]
    | outside t =>
      simp [substitutePieces, placed, placedParts, substituteOutside, ih, Piece.text]

theorem substitute_eq_mapM (script : Text) : substitute lookup script =
    List.flatten <$> (scriptParts script).mapM (substitutePart lookup) :=
  substitutePieces_eq_mapM_parts lookup 0 (cut script)

end

end Rollup.Filter
