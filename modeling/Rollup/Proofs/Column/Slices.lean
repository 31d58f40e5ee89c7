import Rollup.Proofs.Summary.Quotes

/-! # The specs of a list are slices of it

A list of specs is the specs in their order, with white space between and around them that stands
outside of quotes and parentheses. Whatever white space that is, the specs with one blank between
them are the same list.
-/

namespace Rollup

namespace ColumnSpec

/-- In a text that goes on from a nesting, the specs stand in this order. Before, between and after
them is white space outside of quotes and parentheses, and a spec ends at the first one of it. -/
inductive Separated : Nesting → Text → List Text → Prop
  | nil (n : Nesting) : Separated n [] []
  | gap {n : Nesting} {c : Char} {t : Text} {specs : List Text} (hc : n.cuts c)
      (h : Separated (n.step c) t specs) : Separated n (c :: t) specs
  | spec {n : Nesting} {spec t : Text} {specs : List Text} (hne : spec ≠ [])
      (hwhole : ∀ before c after, spec = before ++ c :: after →
        ¬ (before.foldl Nesting.step n).cuts c)
      (hend : ∀ c ∈ t.head?, (spec.foldl Nesting.step n).cuts c)
      (h : Separated (spec.foldl Nesting.step n) t specs) : Separated n (spec ++ t) (spec :: specs)

variable {n : Nesting} {t first : Text} {specs rest : List Text}

/-! ## Cuts -/

theorem eq_of_cuts (n : Nesting) (c : Char) (h : n.cuts c) : n = {} := by
  rw [Nesting.cuts, Bool.and_eq_true, decide_eq_true_iff] at h
  exact h.1

/-- The text begins with a piece that no cut stands in, and goes on with a cut or not at all. -/
structure FirstPiece (n : Nesting) (t first rest : Text) : Prop where
  eq : t = first ++ rest
  whole : ∀ before c after, first = before ++ c :: after → ¬ (before.foldl Nesting.step n).cuts c
  ends : ∀ c ∈ rest.head?, (first.foldl Nesting.step n).cuts c

theorem FirstPiece.cons {c : Char} {u : Text} (h : FirstPiece (n.step c) t first u)
    (hc : ¬ n.cuts c) : FirstPiece n (c :: t) (c :: first) u where
  eq := by rw [h.eq, List.cons_append]
  whole before d after heq := by
    cases before with
    | nil =>
      obtain ⟨rfl, -⟩ := List.cons.inj heq
      exact hc
    | cons b before =>
      obtain ⟨rfl, htail⟩ := List.cons.inj heq
      exact h.whole before d after htail
  ends := h.ends

/-- An empty piece is no spec, and every other one is. -/
theorem FirstPiece.separated {u : Text} (h : FirstPiece n t first u)
    (hrest : Separated (first.foldl Nesting.step n) u (rest.filter (· ≠ []))) :
    Separated n t ((first :: rest).filter (· ≠ [])) := by
  rw [h.eq]
  by_cases hne : first = []
  · subst hne
    exact hrest
  · rw [List.filter_cons_of_pos (by simpa using hne)]
    exact .spec hne h.whole h.ends hrest

theorem exists_firstPiece
    (h : Text.splitWhere Nesting.step Nesting.cuts n t = first :: rest) :
    ∃ u, FirstPiece n t first u ∧
      Separated (first.foldl Nesting.step n) u (rest.filter (· ≠ [])) := by
  induction t generalizing n first rest with
  | nil =>
    cases h
    exact ⟨[], ⟨rfl, by simp, by simp⟩, .nil n⟩
  | cons c t ih =>
    obtain ⟨first', rest', ht⟩ := List.exists_cons_of_ne_nil (Text.splitWhere_ne_nil (n.step c) t)
    obtain ⟨u, hfirst, hseparated⟩ := ih ht
    by_cases hc : n.cuts c
    · rw [Text.splitWhere_cons_of_cuts hc, ht] at h
      cases h
      exact ⟨c :: t, ⟨rfl, by simp, by simpa using hc⟩, .gap hc (hfirst.separated hseparated)⟩
    · rw [Text.splitWhere_cons_of_not_cuts hc ht] at h
      cases h
      exact ⟨u, hfirst.cons hc, hseparated⟩

theorem separated_splitWhere (n : Nesting) (t : Text) :
    Separated n t ((Text.splitWhere Nesting.step Nesting.cuts n t).filter (· ≠ [])) := by
  obtain ⟨first, rest, h⟩ := List.exists_cons_of_ne_nil (Text.splitWhere_ne_nil n t)
  obtain ⟨u, hfirst, hrest⟩ := exists_firstPiece h
  rw [h]
  exact hfirst.separated hrest

/-! ## Joining the specs -/

theorem splitList_eq_ok_iff : splitList t = .ok specs ↔
    (t.foldl Nesting.step {}).quote = none ∧
      (Text.splitWhere Nesting.step Nesting.cuts {} t).filter (· ≠ []) = specs := by
  unfold splitList
  dsimp only
  split
  case isTrue hquote =>
    have hne : (t.foldl Nesting.step {}).quote ≠ none := Option.isSome_iff_ne_none.mp hquote
    simp [hne]
  case isFalse hquote =>
    have hnone : (t.foldl Nesting.step {}).quote = none := by simpa using hquote
    simp [hnone]

/-- Specs that are whole and close their quotes, and but for the last their parentheses, are a list
of specs when one blank stands between them. -/
theorem splitList_joinWith
    (hpieces : ∀ spec ∈ specs, Text.splitWhere Nesting.step Nesting.cuts {} spec = [spec])
    (hends : specs.Pairwise fun spec _ => spec.foldl Nesting.step {} = {})
    (hquotes : ∀ spec ∈ specs, (spec.foldl Nesting.step {}).quote = none)
    (hne : ∀ spec ∈ specs, spec ≠ []) : splitList (Text.joinWith [' '] specs) = .ok specs := by
  rw [splitList_eq_ok_iff]
  rcases List.eq_nil_or_concat' specs with rfl | ⟨before, last, rfl⟩
  · exact ⟨rfl, rfl⟩
  have hjoined : Text.splitWhere Nesting.step Nesting.cuts {}
      (Text.joinWith [' '] (before ++ [last])) = before ++ [last] :=
    Text.splitWhere_joinWith rfl rfl (by simp) hpieces hends
  refine ⟨?_, ?_⟩
  · have hlast := Text.foldl_last_piece step_of_cuts hjoined
    rw [ite_self] at hlast
    rw [← hlast]
    exact hquotes last (by simp)
  · rw [hjoined, List.filter_eq_self]
    simpa using hne

/-- The specs of a list are the slices of its text between the white space outside of quotes and
parentheses, and with one blank between them they are the same list. -/
theorem splitList_slices (h : splitList t = .ok specs) :
    (∀ spec ∈ specs, spec ≠ []) ∧ Separated {} t specs ∧
      splitList (Text.joinWith [' '] specs) = .ok specs := by
  obtain ⟨hquote, rfl⟩ := splitList_eq_ok_iff.mp h
  obtain ⟨first, rest, hpieces⟩ :
      ∃ first rest, Text.splitWhere Nesting.step Nesting.cuts {} t = first :: rest :=
    List.exists_cons_of_ne_nil (Text.splitWhere_ne_nil _ _)
  have hne : ∀ spec ∈ (Text.splitWhere Nesting.step Nesting.cuts {} t).filter (· ≠ []),
      spec ≠ [] := fun spec hspec => by simpa using (List.mem_filter.mp hspec).2
  refine ⟨hne, separated_splitWhere {} t, splitList_joinWith ?_ ?_ ?_ hne⟩
  · obtain ⟨hfirst, hrest⟩ := Text.splitWhere_whole step_of_cuts hpieces
    have hall : ∀ piece ∈ first :: rest,
        Text.splitWhere Nesting.step Nesting.cuts {} piece = [piece] :=
      List.forall_mem_cons.mpr ⟨hfirst, hrest⟩
    rw [← hpieces] at hall
    exact fun spec hspec => hall spec (List.mem_of_mem_filter hspec)
  · obtain ⟨hfirst, hrest⟩ := Text.pairwise_splitWhere step_of_cuts eq_of_cuts hpieces
    rw [hpieces]
    refine List.Pairwise.filter _ (.cons (fun piece hpiece => ?_) hrest)
    exact hfirst (List.ne_nil_of_mem hpiece)
  · intro spec hspec
    rw [quote_foldl_step]
    exact openQuote_of_mem_splitList h hspec

/-- Quotes in parentheses, a parenthesis in quotes, one that closes nothing and one left open. -/
theorem splitList_slices_open_parenthesis :
    let t := " 'a b'\t)x(' (' y)  mean(q  ".toList
    let specs := ["'a b'".toList, ")x(' (' y)".toList, "mean(q  ".toList]
    splitList t = .ok specs ∧ Separated {} t specs ∧
      splitList "'a b' )x(' (' y) mean(q  ".toList = .ok specs := by
  intro t specs
  have h : splitList t = .ok specs := rfl
  exact ⟨h, (splitList_slices h).2⟩

end ColumnSpec

end Rollup
