import Rollup.Column.Spec
import Rollup.Proofs.Agreement
import Rollup.Proofs.Text.Cut

/-! # The segments of a spec

A segment that hides a column changes nothing else of its spec, wherever it stands, and it leaves
the other specs of the list as they are.
-/

namespace Rollup

namespace ColumnSpec

/-! ## Segments in turn -/

theorem addSegments_append (s : ColumnSpec) (segments segments' : List Text) :
    s.addSegments (segments ++ segments') =
      s.addSegments segments >>= fun s => s.addSegments segments' := by
  induction segments generalizing s with
  | nil => rfl
  | cons segment segments ih =>
    rw [List.cons_append, addSegments, addSegments]
    cases s.addSegment (Text.trim segment) with
    | error problem => rfl
    | ok s => exact ih s

/-- The spec as if it were written otherwise, and perhaps hidden. -/
def rewritten (text : Text) (hidden : Bool) (s : ColumnSpec) : ColumnSpec :=
  { s with text := text, invisible := hidden || s.invisible }

/-- No segment looks at the text or makes a column visible again. -/
theorem addSegment_rewritten (text : Text) (hidden : Bool) (s : ColumnSpec) (segment : Text) :
    (s.rewritten text hidden).addSegment segment =
      (s.addSegment segment).map (rewritten text hidden) := by
  have hsort : (s.rewritten text hidden).sort = s.sort := rfl
  have hname : (s.rewritten text hidden).name = s.name := rfl
  have hformat : (s.rewritten text hidden).format = s.format := rfl
  unfold addSegment
  rw [hsort, hname, hformat]
  split
  · rfl
  · split
    · rfl
    · cases readSort _ <;> rfl
  · split
    · simp [rewritten, Except.map]
    · rfl
  · split
    · split <;> rfl
    · split <;> rfl

theorem addSegments_rewritten (text : Text) (hidden : Bool) (s : ColumnSpec)
    (segments : List Text) :
    (s.rewritten text hidden).addSegments segments =
      (s.addSegments segments).map (rewritten text hidden) := by
  induction segments generalizing s with
  | nil => rfl
  | cons segment segments ih =>
    rw [addSegments, addSegments, addSegment_rewritten]
    cases s.addSegment (Text.trim segment) with
    | error problem => rfl
    | ok s => exact ih s

theorem text_of_addSegments {s s' : ColumnSpec} {segments : List Text}
    (h : s.addSegments segments = .ok s') : s'.text = s.text := by
  -- a spec with its own text is itself, so that the text is put back after the segments
  have hsame := addSegments_rewritten s.text false s segments
  change s.addSegments segments = _ at hsame
  rw [h] at hsame
  have hs' : s' = s'.rewritten s.text false := Except.ok.inj hsame
  rw [hs']
  rfl

theorem text_of_read {t : Text} {s : ColumnSpec} (h : read t = .ok s) : s.text = t := by
  unfold read at h
  split at h
  · cases h
  · dsimp only at h
    split at h
    · cases h
    · split at h
      · cases h
        exact text_of_addSegments ‹_›
      · cases h

/-! ## One more segment that hides a column -/

/-- The segment that hides a column, as it follows others. -/
def hideMark : Text := [';', '<', '>']

theorem addSegments_hideMark (s : ColumnSpec) (text : Text) (early later : List Text) :
    (s.rewritten text false).addSegments (early ++ ['<', '>'] :: later) =
      (s.addSegments (early ++ later)).map (rewritten text true) := by
  rw [addSegments_append, addSegments_append, addSegments_rewritten]
  cases s.addSegments early with
  | error problem => rfl
  | ok s =>
    have hmark : (s.rewritten text false).addSegment (Text.trim ['<', '>']) =
        .ok (s.rewritten text true) := rfl
    change (s.rewritten text false).addSegments (['<', '>'] :: later) =
      (s.addSegments later).map (rewritten text true)
    rw [addSegments, hmark]
    exact addSegments_rewritten text true s later

/-- The pieces of a spec with and without the hiding segment. -/
theorem splitSegments_hideMark {first last : Text} (hfirst : Text.openQuote first = none)
    (hlast : last = [] ∨ last.head? = some ';') :
    Agree (fun segments segments' => ∃ formula early later,
        segments = formula :: (early ++ later) ∧
        segments' = formula :: (early ++ ['<', '>'] :: later))
      (splitSegments (first ++ last)) (splitSegments (first ++ hideMark ++ last)) := by
  have hquote : Text.openQuote (first ++ last) = last.foldl Text.quoteAfter none := by
    rw [Text.openQuote, List.foldl_append]
    exact congrArg (last.foldl Text.quoteAfter) hfirst
  have hquote' : Text.openQuote (first ++ hideMark ++ last) = last.foldl Text.quoteAfter none := by
    rw [Text.openQuote, List.foldl_append, List.foldl_append]
    exact congrArg (fun quote => last.foldl Text.quoteAfter (hideMark.foldl Text.quoteAfter quote))
      hfirst
  unfold splitSegments
  rw [hquote, hquote']
  split
  case isTrue => exact .error
  case isFalse =>
    -- What follows goes on in the last piece of `first` and begins with a cut or is empty, so that
    -- this piece ends where `first` does.
    let pieces := Text.splitWhere Text.quoteAfter fun quote c => quote.isNone && c = ';'
    obtain ⟨before, piece, hpieces⟩ : ∃ before piece, pieces none first = before ++ [piece] :=
      Text.exists_splitWhere_eq_append _ _
    obtain ⟨later, hlater⟩ : ∃ later, pieces none last = [] :: later := by
      rcases hlast with rfl | hlast
      · exact ⟨[], rfl⟩
      · obtain ⟨rest, rfl⟩ := List.head?_eq_some_iff.mp hlast
        exact ⟨pieces none rest, rfl⟩
    have hmark : pieces none (hideMark ++ last) = [] :: ['<', '>'] :: later := by
      have hpiece : pieces none hideMark = [[]] ++ [['<', '>']] := rfl
      exact Text.splitWhere_append hpiece hlater
    have hplain : pieces none (first ++ last) = before ++ piece :: later := by
      have h := Text.splitWhere_append hpieces (hfirst ▸ hlater)
      rwa [List.append_nil] at h
    have hmarked : pieces none (first ++ (hideMark ++ last)) =
        before ++ piece :: ['<', '>'] :: later := by
      have h := Text.splitWhere_append hpieces (hfirst ▸ hmark)
      rwa [List.append_nil] at h
    rw [← List.append_assoc] at hmarked
    refine .ok ?_
    cases before with
    | nil => exact ⟨piece, [], later, hplain, hmarked⟩
    | cons formula early =>
      exact ⟨formula, early ++ [piece], later, hplain.trans (by simp), hmarked.trans (by simp)⟩

theorem read_of_splitSegments {t formula : Text} {segments : List Text}
    (h : splitSegments t = .ok (formula :: segments)) :
    read t = if Text.trim formula = [] then .error (.spec t .emptyFormula)
      else (addSegments { text := t, formula := Text.trim formula } segments).mapError (.spec t) := by
  unfold read
  rw [h]
  cases hsegments : addSegments { text := t, formula := Text.trim formula } segments <;>
    simp [hsegments, Except.mapError]

theorem read_hideMark {first last : Text} (hfirst : Text.openQuote first = none)
    (hlast : last = [] ∨ last.head? = some ';') :
    Agree (fun s s' => s' = s.rewritten (first ++ hideMark ++ last) true)
      (read (first ++ last)) (read (first ++ hideMark ++ last)) := by
  have hsplit := splitSegments_hideMark hfirst hlast
  generalize hplain : splitSegments (first ++ last) = x at hsplit
  generalize hmarked : splitSegments (first ++ hideMark ++ last) = y at hsplit
  cases hsplit with
  | error =>
    rw [read, hplain, read, hmarked]
    exact .error
  | ok h =>
    obtain ⟨formula, early, later, rfl, rfl⟩ := h
    rw [read_of_splitSegments hplain, read_of_splitSegments hmarked]
    by_cases hformula : Text.trim formula = []
    · rw [if_pos hformula, if_pos hformula]
      exact .error
    · rw [if_neg hformula, if_neg hformula]
      have hmark := addSegments_hideMark { text := first ++ last, formula := Text.trim formula }
        (first ++ hideMark ++ last) early later
      rw [rewritten, Bool.false_or] at hmark
      rw [hmark]
      cases addSegments _ (early ++ later) with
      | error problem => exact .error
      | ok s => exact .ok rfl

/-! ## One more segment in a list of specs -/

/-- Between these two texts a segment of the spec `first ++ last` ends, outside of quotes, so that
another one may be written. The other pieces stand before and after that spec. -/
structure SegmentEnds (left right : Text) (before : List Text) (first last : Text)
    (after : List Text) : Prop where
  left_pieces : Text.splitWhere Nesting.step Nesting.cuts {} left = before ++ [first]
  right_pieces :
    Text.splitWhere Nesting.step Nesting.cuts (left.foldl Nesting.step {}) right = last :: after
  unquoted : (left.foldl Nesting.step {}).quote = none
  ends : last = [] ∨ last.head? = some ';'
  spec_ne_nil : first ++ last ≠ []

theorem step_of_cuts (n : Nesting) (c : Char) (h : n.cuts c) : n.step c = {} := by
  rw [Nesting.cuts, Bool.and_eq_true, decide_eq_true_iff] at h
  obtain ⟨rfl, hwhite⟩ := h
  have hne : ∀ d, Text.isWhite d = false → c ≠ d := by
    rintro d hd rfl
    rw [hwhite] at hd
    cases hd
  have hquote : Text.isQuote c = false := by
    simp [Text.isQuote, hne '\'' (by decide), hne '"' (by decide)]
  simp [Nesting.step, Text.quoteAfter, hquote, hne '(' (by decide), hne ')' (by decide)]

theorem quote_foldl_step (n : Nesting) (t : Text) :
    (t.foldl Nesting.step n).quote = t.foldl Text.quoteAfter n.quote := by
  induction t generalizing n with
  | nil => rfl
  | cons c t ih => exact ih (n.step c)

theorem step_of_mem_hideMark {n : Nesting} (hquote : n.quote = none) {c : Char}
    (hc : c ∈ hideMark) : n.step c = n ∧ ¬ n.cuts c := by
  have hsemicolon : Text.isWhite ';' = false := by decide
  have hleft : Text.isWhite '<' = false := by decide
  have hright : Text.isWhite '>' = false := by decide
  obtain ⟨quote, depth⟩ := n
  cases hquote
  simp only [hideMark, List.mem_cons, List.not_mem_nil, or_false] at hc
  rcases hc with rfl | rfl | rfl
  · exact ⟨rfl, by simp [Nesting.cuts, hsemicolon]⟩
  · exact ⟨rfl, by simp [Nesting.cuts, hleft]⟩
  · exact ⟨rfl, by simp [Nesting.cuts, hright]⟩

section SegmentEnds

variable {left right first last : Text} {before after : List Text}

theorem SegmentEnds.openQuote_first (h : SegmentEnds left right before first last after) :
    Text.openQuote first = none := by
  have hfirst := Text.foldl_last_piece step_of_cuts h.left_pieces
  rw [ite_self] at hfirst
  have hquote := h.unquoted
  rwa [← hfirst, quote_foldl_step] at hquote

theorem SegmentEnds.splitWhere_plain (h : SegmentEnds left right before first last after) :
    Text.splitWhere Nesting.step Nesting.cuts {} (left ++ right) =
      before ++ (first ++ last) :: after :=
  Text.splitWhere_append h.left_pieces h.right_pieces

theorem SegmentEnds.splitWhere_hideMark (h : SegmentEnds left right before first last after) :
    Text.splitWhere Nesting.step Nesting.cuts {} (left ++ hideMark ++ right) =
      before ++ (first ++ hideMark ++ last) :: after := by
  -- the scan passes the mark as it stands, so that the piece before it goes on behind it
  have hstill := fun c (hc : c ∈ hideMark) => step_of_mem_hideMark h.unquoted hc
  have hmark : Text.splitWhere Nesting.step Nesting.cuts (left.foldl Nesting.step {}) hideMark =
      [] ++ [hideMark] := Text.splitWhere_of_still hstill
  have hright : Text.splitWhere Nesting.step Nesting.cuts
      (hideMark.foldl Nesting.step (left.foldl Nesting.step {})) right = last :: after := by
    rw [Text.foldl_of_still fun c hc => (hstill c hc).1]
    exact h.right_pieces
  rw [List.append_assoc, List.append_assoc]
  exact Text.splitWhere_append h.left_pieces (Text.splitWhere_append hmark hright)

theorem SegmentEnds.foldl_hideMark (h : SegmentEnds left right before first last after) :
    (left ++ hideMark ++ right).foldl Nesting.step {} = (left ++ right).foldl Nesting.step {} := by
  have hmark : ∀ n : Nesting, n.quote = none → hideMark.foldl Nesting.step n = n := by
    rintro ⟨quote, depth⟩ rfl
    rfl
  rw [List.foldl_append, List.foldl_append, hmark _ h.unquoted, List.foldl_append]

/-- The lists of specs are the same but for the one spec. -/
theorem SegmentEnds.splitList (h : SegmentEnds left right before first last after) :
    Agree (fun specs specs' =>
        specs = before.filter (· ≠ []) ++ (first ++ last) :: after.filter (· ≠ []) ∧
        specs' = before.filter (· ≠ []) ++ (first ++ hideMark ++ last) :: after.filter (· ≠ []))
      (splitList (left ++ right)) (splitList (left ++ hideMark ++ right)) := by
  have hne : first ++ hideMark ++ last ≠ [] := by simp [hideMark]
  unfold ColumnSpec.splitList
  rw [h.splitWhere_plain, h.splitWhere_hideMark, h.foldl_hideMark]
  dsimp only
  split
  case isTrue => exact .error
  case isFalse =>
    have hfilter : ∀ spec : Text, spec ≠ [] → (before ++ spec :: after).filter (· ≠ []) =
        before.filter (· ≠ []) ++ spec :: after.filter (· ≠ []) := by
      intro spec hspec
      simp [hspec]
    exact .ok ⟨hfilter _ h.spec_ne_nil, hfilter _ hne⟩

end SegmentEnds

end ColumnSpec

end Rollup
