import Mathlib.Algebra.Ring.Parity
import Rollup.Filter.Reference
import Rollup.Proofs.Text.Cut

/-! # The pieces of a script

A string literal goes from a quote to the first quote after it that an even number of backslashes
precedes. What stands before, between and after the literals are the texts outside of them, each as
long as it can be. This determines the pieces.
-/

namespace Rollup.Filter

/-! ## Escaped quotes -/

/-- How many backslashes stand at the end. -/
def trailingBackslashes (t : Text) : Nat := (t.reverse.takeWhile (· = '\\')).length

@[simp] theorem trailingBackslashes_nil : trailingBackslashes [] = 0 := rfl

theorem trailingBackslashes_concat (t : Text) (c : Char) :
    trailingBackslashes (t ++ [c]) = if c = '\\' then trailingBackslashes t + 1 else 0 := by
  unfold trailingBackslashes
  by_cases hc : c = '\\' <;> simp [hc]

/-- Every quote in `body` is escaped, when `before` stands in front of it in the literal. -/
def EscapesQuotes (before body : Text) : Prop :=
  ∀ u v, body = u ++ '"' :: v → ¬ Even (trailingBackslashes (before ++ u))

theorem escapesQuotes_nil (before : Text) : EscapesQuotes before [] := by
  intro u v h
  simp at h

theorem escapesQuotes_cons {before body : Text} {c : Char} :
    EscapesQuotes before (c :: body) ↔
      (c = '"' → ¬ Even (trailingBackslashes before)) ∧ EscapesQuotes (before ++ [c]) body := by
  constructor
  · intro h
    refine ⟨?_, ?_⟩
    · rintro rfl
      simpa using h [] body rfl
    · rintro u v rfl
      simpa using h (c :: u) v rfl
  · rintro ⟨hc, hbody⟩ u v h
    cases u with
    | nil =>
      obtain ⟨rfl, -⟩ := List.cons_eq_cons.mp h
      simpa using hc rfl
    | cons d u =>
      obtain ⟨rfl, rfl⟩ := List.cons_eq_cons.mp h
      simpa using hbody u v rfl

/-! ## One literal -/

/-- Whether the next quote is escaped, when `before` stands in front of it in the literal. -/
def escapes (before : Text) : Bool := !decide (Even (trailingBackslashes before))

theorem escapes_concat (before : Text) (c : Char) :
    (decide (c = '\\') && !escapes before) = escapes (before ++ [c]) := by
  by_cases hc : c = '\\' <;>
    simp [escapes, trailingBackslashes_concat, hc, Nat.even_add_one, -Nat.not_even_iff_odd]

theorem splitLiteral_of_closes {before : Text} (h : Even (trailingBackslashes before))
    (t : Text) : splitLiteral (escapes before) ('"' :: t) = (['"'], t) := by
  simp [splitLiteral, escapes, h]

theorem splitLiteral_cons {before : Text} {c : Char}
    (h : c = '"' → ¬ Even (trailingBackslashes before)) (t : Text) :
    splitLiteral (escapes before) (c :: t) =
      (c :: (splitLiteral (escapes (before ++ [c])) t).1,
        (splitLiteral (escapes (before ++ [c])) t).2) := by
  have hgoes : ¬ (c = '"' ∧ !escapes before) := by
    rintro ⟨hc, hopen⟩
    simp [escapes, h hc] at hopen
  rw [splitLiteral, if_neg hgoes, escapes_concat]

theorem splitLiteral_closed {before body : Text} (hbody : EscapesQuotes before body)
    (hend : Even (trailingBackslashes (before ++ body))) (rest : Text) :
    splitLiteral (escapes before) (body ++ '"' :: rest) = (body ++ ['"'], rest) := by
  induction body generalizing before with
  | nil =>
    rw [List.append_nil] at hend
    exact splitLiteral_of_closes hend rest
  | cons c body ih =>
    -- the character joins what stands before
    obtain ⟨hc, hbody⟩ := escapesQuotes_cons.mp hbody
    have hih := ih hbody (by simpa using hend)
    rw [List.cons_append, splitLiteral_cons hc, hih]
    rfl

theorem splitLiteral_unclosed {before body : Text} (hbody : EscapesQuotes before body) :
    splitLiteral (escapes before) body = (body, []) := by
  induction body generalizing before with
  | nil => rfl
  | cons c body ih =>
    obtain ⟨hc, hbody⟩ := escapesQuotes_cons.mp hbody
    rw [splitLiteral_cons hc, ih hbody]

theorem literal_cases (before t : Text) :
    EscapesQuotes before t ∨
      ∃ body rest, t = body ++ '"' :: rest ∧ EscapesQuotes before body ∧
        Even (trailingBackslashes (before ++ body)) := by
  induction t generalizing before with
  | nil => exact .inl (escapesQuotes_nil before)
  | cons c t ih =>
    by_cases hc : c = '"' → ¬ Even (trailingBackslashes before)
    · rcases ih (before ++ [c]) with ht | ⟨body, rest, rfl, hbody, hend⟩
      · exact .inl (escapesQuotes_cons.mpr ⟨hc, ht⟩)
      · exact .inr ⟨c :: body, rest, rfl, escapesQuotes_cons.mpr ⟨hc, hbody⟩, by simpa using hend⟩
    · obtain ⟨rfl, hend⟩ := Classical.not_imp.mp hc
      exact .inr ⟨[], t, rfl, escapesQuotes_nil before, by simpa using hend⟩

/-! ## All pieces -/

/-- The pieces of a script: a literal ends with the first quote that is not escaped or with the
script, and a text outside ends where a literal starts. -/
inductive IsCut : Text → List Piece → Prop
  | nil : IsCut [] []
  | outside {t rest : Text} {pieces : List Piece} (hne : t ≠ []) (ht : '"' ∉ t)
      (hrest : ∀ c ∈ rest.head?, c = '"') (h : IsCut rest pieces) :
      IsCut (t ++ rest) (.outside t :: pieces)
  | closed {body rest : Text} {pieces : List Piece} (hbody : EscapesQuotes [] body)
      (hend : Even (trailingBackslashes body)) (h : IsCut rest pieces) :
      IsCut ('"' :: body ++ '"' :: rest) (.literal ('"' :: body ++ ['"']) :: pieces)
  | unclosed {body : Text} (hbody : EscapesQuotes [] body) :
      IsCut ('"' :: body) [.literal ('"' :: body)]

theorem cut_literal {body inside rest : Text} (h : splitLiteral false body = (inside, rest)) :
    cut ('"' :: body) = .literal ('"' :: inside) :: cut rest := by
  rw [cut, if_pos rfl]
  dsimp only
  rw [h]

theorem cut_outside {t rest : Text} (hne : t ≠ []) (ht : '"' ∉ t)
    (hrest : ∀ c ∈ rest.head?, c = '"') : cut (t ++ rest) = .outside t :: cut rest := by
  cases t with
  | nil => exact absurd rfl hne
  | cons c t =>
    simp only [List.mem_cons, not_or] at ht
    have hinside : (t ++ rest).takeWhile (· != '"') = t := Text.takeWhile_ne_append ht.2 hrest
    rw [List.cons_append, cut, if_neg (Ne.symm ht.1)]
    dsimp only
    rw [hinside, List.drop_left]

theorem IsCut.eq_cut {script : Text} {pieces : List Piece} (h : IsCut script pieces) :
    pieces = cut script := by
  induction h with
  | nil => simp [cut]
  | outside hne ht hrest h ih => rw [cut_outside hne ht hrest, ih]
  | closed hbody hend h ih =>
    have hsplit := splitLiteral_closed hbody hend
    rw [ih]
    exact (cut_literal (hsplit _)).symm
  | unclosed hbody =>
    have hsplit := splitLiteral_unclosed hbody
    rw [cut_literal hsplit, cut]

theorem isCut_cut (script : Text) : IsCut script (cut script) := by
  fun_induction cut script with
  | case1 => exact .nil
  | case2 t r ih =>
    rcases literal_cases [] t with ht | ⟨body, rest, rfl, hbody, hend⟩
    · have hsplit : r = (t, []) := splitLiteral_unclosed ht
      rw [hsplit, cut]
      exact .unclosed ht
    · have hsplit : r = (body ++ ['"'], rest) := splitLiteral_closed hbody hend rest
      rw [hsplit] at ih ⊢
      exact .closed hbody hend ih
  | case3 c t hc inside ih =>
    -- what the text outside leaves starts with a quote, if anything is left
    have hdrop : t.drop inside.length = t.dropWhile (· != '"') := Text.drop_length_takeWhile _ t
    have hscript : c :: t = (c :: inside) ++ t.dropWhile (· != '"') := by
      rw [List.cons_append, List.takeWhile_append_dropWhile]
    rw [hdrop] at ih ⊢
    rw [hscript]
    apply IsCut.outside _ _ _ ih
    · exact List.cons_ne_nil _ _
    · simp only [List.mem_cons, not_or]
      exact ⟨Ne.symm hc, Text.not_mem_takeWhile_ne _ _⟩
    · intro d hd
      exact Text.eq_of_mem_head?_dropWhile_ne hd

theorem isCut_iff {script : Text} {pieces : List Piece} :
    IsCut script pieces ↔ pieces = cut script := by
  constructor
  · exact IsCut.eq_cut
  · rintro rfl
    exact isCut_cut script

theorem IsCut.flatMap_text {script : Text} {pieces : List Piece} (h : IsCut script pieces) :
    pieces.flatMap Piece.text = script := by
  induction h with
  | nil => rfl
  | outside hne ht hrest h ih => rw [List.flatMap_cons, ih]; rfl
  | closed hbody hend h ih => simp [Piece.text, ih]
  | unclosed hbody => simp [Piece.text]

/-! ## Places -/

/-- The pieces with the offsets at which they start. -/
def placed : Nat → List Piece → List (Nat × Piece)
  | _, [] => []
  | offset, p :: pieces => (offset, p) :: placed (offset + Text.byteSize p.text) pieces

theorem of_mem_placed {start offset : Nat} {pieces : List Piece} {p : Piece}
    (h : (offset, p) ∈ placed start pieces) :
    ∃ before after, pieces = before ++ p :: after ∧
      offset = start + Text.byteSize (before.flatMap Piece.text) := by
  induction pieces generalizing start with
  | nil => cases h
  | cons q pieces ih =>
    rcases List.mem_cons.mp h with h | h
    · obtain ⟨rfl, rfl⟩ := Prod.mk.inj h
      exact ⟨[], pieces, rfl, rfl⟩
    · obtain ⟨before, after, rfl, hoffset⟩ := ih h
      refine ⟨q :: before, after, rfl, ?_⟩
      rw [hoffset, List.flatMap_cons, Text.byteSize_append, Nat.add_assoc]

end Rollup.Filter
