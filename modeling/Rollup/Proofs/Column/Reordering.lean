import Rollup.Proofs.Summary.Quotes

/-! # The segments of a spec in another order

Every segment behind the formula sets one part of the spec. Only format segments may set theirs more
than once, so that the segments can stand in any order in which these follow one another as before.
-/

namespace Rollup

/-! ## Steps that commute -/

section Steps

variable {α σ : Type} {f : σ → α → σ} {p : α → Bool} {l l' : List α}

theorem foldl_step_comm {a : α} (h : ∀ b ∈ l, ∀ s, f (f s a) b = f (f s b) a) (s : σ) :
    l.foldl f (f s a) = f (l.foldl f s) a := by
  induction l generalizing s with
  | nil => rfl
  | cons b l ih =>
    obtain ⟨hb, hl⟩ := List.forall_mem_cons.mp h
    rw [List.foldl_cons, List.foldl_cons, hb]
    exact ih hl (f s b)

/-- Steps of which only the picked ones do not commute can be made in any order in which the picked
ones follow one another as before: these first, and then the others. -/
theorem foldl_eq_of_perm (hcomm : ∀ a b, ¬ (p a ∧ p b) → ∀ s, f (f s a) b = f (f s b) a)
    (hperm : l'.Perm l) (hpicked : l'.filter p = l.filter p) (s : σ) :
    l'.foldl f s = l.foldl f s := by
  have hfirst : ∀ (l : List α) (s : σ),
      l.foldl f s = (l.filter fun a => !p a).foldl f ((l.filter p).foldl f s) := by
    intro l
    induction l with
    | nil => exact fun s => rfl
    | cons a l ih =>
      intro s
      rw [List.foldl_cons, ih]
      cases ha : p a with
      | true => simp [ha]
      | false =>
        rw [foldl_step_comm fun b _ => hcomm a b (by simp [ha])]
        simp [ha]
  rw [hfirst l', hfirst l, hpicked]
  refine (hperm.filter _).foldl_eq' (fun a ha b _ s => ?_) _
  have hnot : ¬ p a := by simpa using (List.mem_filter.mp ha).2
  exact hcomm a b (fun h => hnot h.1) s

end Steps

/-! ## Quotes in texts side by side -/

namespace Text

variable {s t : Text} {texts : List Text}

theorem quoteAfter_injective {quote quote' : Option Char} (h : ∀ q ∈ quote, isQuote q)
    (h' : ∀ q ∈ quote', isQuote q) {c : Char} (heq : quoteAfter quote c = quoteAfter quote' c) :
    quote = quote' := by
  cases hc : isQuote c with
  | false => rwa [quoteAfter_of_not_isQuote h hc, quoteAfter_of_not_isQuote h' hc] at heq
  | true => cases quote <;> cases quote' <;> grind [quoteAfter]

theorem foldl_quoteAfter_injective {quote quote' : Option Char} (h : ∀ q ∈ quote, isQuote q)
    (h' : ∀ q ∈ quote', isQuote q)
    (heq : t.foldl quoteAfter quote = t.foldl quoteAfter quote') : quote = quote' := by
  induction t generalizing quote quote' with
  | nil => exact heq
  | cons c t ih =>
    have hstep := ih (isQuote_of_mem_foldl h [c]) (isQuote_of_mem_foldl h' [c]) heq
    exact quoteAfter_injective h h' hstep

/-- A text that closes its own quotes closes none that is open before it. -/
theorem openQuote_append_ne_none (hs : openQuote s ≠ none) (ht : openQuote t = none) :
    openQuote (s ++ t) ≠ none := by
  intro h
  rw [openQuote, List.foldl_append] at h
  exact hs (foldl_quoteAfter_injective (isQuote_of_mem_foldl (by simp) s) (by simp)
    (h.trans ht.symm))

variable {separator : Char} (hseparator : isQuote separator = false)

include hseparator

theorem openQuote_joinWith_cons (h : openQuote s = none) (texts : List Text) :
    openQuote (joinWith [separator] (s :: texts)) = openQuote (joinWith [separator] texts) := by
  cases texts with
  | nil =>
    rw [joinWith, List.intercalate_singleton, h]
    rfl
  | cons u texts =>
    have hmark : openQuote [separator] = none := openQuote_plain (by simpa using hseparator)
    rw [joinWith, List.intercalate_cons_cons, List.append_assoc, openQuote_append h,
      openQuote_append hmark]
    rfl

theorem openQuote_joinWith (h : ∀ u ∈ texts, openQuote u = none) :
    openQuote (joinWith [separator] texts) = none := by
  induction texts with
  | nil => rfl
  | cons u texts ih =>
    obtain ⟨hu, htexts⟩ := List.forall_mem_cons.mp h
    rw [openQuote_joinWith_cons hseparator hu]
    exact ih htexts

/-- Of texts side by side, one alone cannot leave a quote open that another one closes. -/
theorem openQuote_joinWith_ne_none {before after : List Text}
    (hbefore : ∀ u ∈ before, openQuote u = none) (hs : openQuote s ≠ none)
    (hafter : ∀ u ∈ after, openQuote u = none) :
    openQuote (joinWith [separator] (before ++ s :: after)) ≠ none := by
  induction before with
  | nil =>
    cases after with
    | nil =>
      rw [List.nil_append, joinWith, List.intercalate_singleton]
      exact hs
    | cons u after =>
      have hmark : openQuote [separator] = none := openQuote_plain (by simpa using hseparator)
      rw [List.nil_append, joinWith, List.intercalate_cons_cons, List.append_assoc]
      refine openQuote_append_ne_none hs ?_
      rw [openQuote_append hmark]
      exact openQuote_joinWith hseparator hafter
  | cons u before ih =>
    obtain ⟨hu, hbefore⟩ := List.forall_mem_cons.mp hbefore
    rw [List.cons_append, openQuote_joinWith_cons hseparator hu]
    exact ih hbefore

end Text

namespace ColumnSpec

/-! ## Segments that set a part each -/

/-- Whether a segment is one of format flags: it is not blank, and neither a sort segment nor a mark
nor a quoted name. -/
def isFormat (segment : Text) : Bool :=
  match Text.trim segment with
  | [] => false
  | '^' :: _ => false
  | '<' :: _ => false
  | t => (Text.unquote? t).isNone

/-- What a segment says. -/
inductive Part where
  | blank
  /-- A sort key, if it can be read. -/
  | sortKey (key : Option SortSegment)
  /-- A mark, and whether it is closed. -/
  | mark (closed : Bool)
  | quotedName (t : Text)
  /-- Flags, and what they make of a format, if they can be read. -/
  | flags (merge : CellFormat → Option CellFormat)

namespace Part

def isFlags : Part → Bool
  | flags _ => true
  | _ => false

/-- The spec with one more part, if it can have it. -/
def addTo? : Part → ColumnSpec → Option ColumnSpec
  | blank, s => some s
  | sortKey key, s =>
    if s.sort.isSome then none else key.map fun key => { s with sort := some key }
  | mark closed, s => if closed then some { s with invisible := true } else none
  | quotedName t, s => if s.name.isSome then none else some { s with name := some t }
  | flags merge, s => (merge s.format).map fun format => { s with format := format }

@[simp] theorem addTo?_blank : blank.addTo? = some := funext fun _ => rfl

variable {p q : Part}

theorem addTo?_flags_comm (merge : CellFormat → Option CellFormat) (hq : ¬ q.isFlags)
    (s : ColumnSpec) :
    ((flags merge).addTo? s).bind q.addTo? = (q.addTo? s).bind (flags merge).addTo? := by
  obtain ⟨text, formula, format, sort, invisible, name⟩ := s
  cases hmerge : merge format <;> cases q with
  | blank => simp [addTo?, hmerge]
  | sortKey key => cases sort <;> cases key <;> simp [addTo?, hmerge]
  | mark closed => cases closed <;> simp [addTo?, hmerge]
  | quotedName t => cases name <;> simp [addTo?, hmerge]
  | flags => exact absurd rfl hq

/-- Parts of different kinds are apart in the spec, a second sort key or name is refused, and marks
are alike. -/
theorem addTo?_comm (h : ¬ (p.isFlags ∧ q.isFlags)) (s : ColumnSpec) :
    (p.addTo? s).bind q.addTo? = (q.addTo? s).bind p.addTo? := by
  cases p with
  | flags merge => exact addTo?_flags_comm merge (fun hq => h ⟨rfl, hq⟩) s
  | blank => simp
  | sortKey key =>
    obtain ⟨text, formula, format, sort, invisible, name⟩ := s
    cases q with
    | flags merge => exact (addTo?_flags_comm merge (by simp [isFlags]) _).symm
    | blank => simp
    | sortKey key' => cases sort <;> cases key <;> cases key' <;> rfl
    | mark closed => cases sort <;> cases key <;> cases closed <;> rfl
    | quotedName t => cases sort <;> cases key <;> cases name <;> rfl
  | mark closed =>
    obtain ⟨text, formula, format, sort, invisible, name⟩ := s
    cases q with
    | flags merge => exact (addTo?_flags_comm merge (by simp [isFlags]) _).symm
    | blank => simp
    | sortKey key => cases sort <;> cases key <;> cases closed <;> rfl
    | mark closed' => cases closed <;> cases closed' <;> rfl
    | quotedName t => cases closed <;> cases name <;> rfl
  | quotedName t =>
    obtain ⟨text, formula, format, sort, invisible, name⟩ := s
    cases q with
    | flags merge => exact (addTo?_flags_comm merge (by simp [isFlags]) _).symm
    | blank => simp
    | sortKey key => cases sort <;> cases key <;> cases name <;> rfl
    | mark closed => cases closed <;> cases name <;> rfl
    | quotedName t' => cases name <;> rfl

end Part

theorem exists_part (segment : Text) : ∃ p : Part, p.isFlags = isFormat segment ∧
    ∀ s, (s.addSegment (Text.trim segment)).toOption = p.addTo? s := by
  unfold isFormat
  generalize Text.trim segment = t
  split
  case h_1 => exact ⟨.blank, rfl, fun s => rfl⟩
  case h_2 t =>
    refine ⟨.sortKey (readSort t).toOption, rfl, fun s => ?_⟩
    rw [addSegment, Part.addTo?]
    split
    · rfl
    · cases readSort t <;> rfl
  case h_3 t =>
    refine ⟨.mark (t.getLast? = some '>'), rfl, fun s => ?_⟩
    simp only [addSegment, Part.addTo?, decide_eq_true_eq]
    split <;> rfl
  case h_4 hblank hsort hmark =>
    cases hname : Text.unquote? t with
    | some name =>
      refine ⟨.quotedName name, rfl, fun s => ?_⟩
      rw [addSegment, hname, Part.addTo?]
      case some =>
        dsimp only
        split <;> rfl
      all_goals assumption
    | none =>
      refine ⟨.flags fun format => (format.merge t).toOption, rfl, fun s => ?_⟩
      rw [addSegment, hname, Part.addTo?]
      case none =>
        dsimp only
        cases s.format.merge t <;> rfl
      all_goals assumption

/-- Adds a segment to what the segments before it gave. -/
def addSegment? (s : Option ColumnSpec) (segment : Text) : Option ColumnSpec :=
  s.bind fun s => (s.addSegment (Text.trim segment)).toOption

theorem foldl_addSegment?_none (segments : List Text) : segments.foldl addSegment? none = none := by
  induction segments with
  | nil => rfl
  | cons segment segments ih => exact ih

theorem toOption_addSegments (s : ColumnSpec) (segments : List Text) :
    (s.addSegments segments).toOption = segments.foldl addSegment? (some s) := by
  induction segments generalizing s with
  | nil => rfl
  | cons segment segments ih =>
    rw [addSegments, List.foldl_cons, addSegment?, Option.bind_some]
    cases s.addSegment (Text.trim segment) with
    | ok s => exact ih s
    | error problem => exact (foldl_addSegment?_none segments).symm

theorem addSegment?_comm {a b : Text} (h : ¬ (isFormat a ∧ isFormat b)) (s : Option ColumnSpec) :
    addSegment? (addSegment? s a) b = addSegment? (addSegment? s b) a := by
  obtain ⟨p, hp, haddp⟩ := exists_part a
  obtain ⟨q, hq, haddq⟩ := exists_part b
  cases s with
  | none => rfl
  | some s =>
    simp only [addSegment?, haddp, haddq, Option.bind_some]
    exact Part.addTo?_comm (by rwa [hp, hq]) s

/-- Segments in another order give the same spec or none, if the format segments follow one another
as before. -/
theorem toOption_addSegments_of_perm {segments segments' : List Text}
    (hperm : segments'.Perm segments)
    (hformat : segments'.filter isFormat = segments.filter isFormat) (s : ColumnSpec) :
    (s.addSegments segments').toOption = (s.addSegments segments).toOption := by
  rw [toOption_addSegments, toOption_addSegments]
  exact foldl_eq_of_perm (fun a b h => addSegment?_comm h) hperm hformat _

/-! ## Reading a spec in another order -/

/-- Whether a spec is cut at a character. -/
def cutsSegments (quote : Option Char) (c : Char) : Bool := quote.isNone && c = ';'

/-- The texts between the semicolons of a spec, whether it closes its quotes or not. -/
def pieces (t : Text) : List Text := Text.splitWhere Text.quoteAfter cutsSegments none t

theorem eq_none_of_cutsSegments (quote : Option Char) (c : Char) (h : cutsSegments quote c) :
    quote = none := by
  rw [cutsSegments, Bool.and_eq_true, Option.isNone_iff_eq_none] at h
  exact h.1

theorem quoteAfter_of_cutsSegments (quote : Option Char) (c : Char) (h : cutsSegments quote c) :
    Text.quoteAfter quote c = none := by
  obtain ⟨rfl, rfl⟩ : quote = none ∧ c = ';' := by simpa [cutsSegments] using h
  rfl

variable {t formula : Text} {segments segments' : List Text}

theorem splitSegments_of_closed (h : Text.openQuote t = none) : splitSegments t = .ok (pieces t) := by
  rw [splitSegments, h]
  rfl

theorem read_of_open (h : Text.openQuote t ≠ none) :
    read t = .error (.spec t .unmatchedQuote) := by
  rw [read, splitSegments, if_pos (Option.isSome_iff_ne_none.mpr h)]

/-- Only the last piece of a spec can leave a quote open. -/
theorem exists_pieces (t : Text) : ∃ before last, pieces t = before ++ [last] ∧
    (∀ piece ∈ before, Text.openQuote piece = none) ∧ Text.openQuote last = Text.openQuote t := by
  obtain ⟨before, last, hpieces⟩ : ∃ before last, pieces t = before ++ [last] :=
    Text.exists_splitWhere_eq_append none t
  have hlast := Text.foldl_last_piece quoteAfter_of_cutsSegments hpieces
  rw [ite_self] at hlast
  refine ⟨before, last, hpieces, fun piece hpiece => ?_, hlast⟩
  cases before with
  | nil => cases hpiece
  | cons first rest =>
    obtain ⟨hfirst, hrest⟩ := Text.pairwise_splitWhere quoteAfter_of_cutsSegments
      eq_none_of_cutsSegments hpieces
    rcases List.mem_cons.mp hpiece with rfl | hpiece
    · exact hfirst (by simp)
    · exact (List.pairwise_append.mp hrest).2.2 piece hpiece last (by simp)

theorem pieces_of_mem_pieces {piece : Text} (h : piece ∈ pieces t) : pieces piece = [piece] := by
  obtain ⟨first, rest, hpieces⟩ :
      ∃ first rest, Text.splitWhere Text.quoteAfter cutsSegments none t = first :: rest :=
    List.exists_cons_of_ne_nil (Text.splitWhere_ne_nil _ _)
  have hwhole := Text.splitWhere_whole quoteAfter_of_cutsSegments hpieces
  rw [pieces, hpieces] at h
  rcases List.mem_cons.mp h with rfl | h
  · exact hwhole.1
  · exact hwhole.2 piece h

/-- The reordered text closes its quotes just when the spec does, and its pieces are then those that
were put together. -/
theorem openQuote_joinWith_of_perm {texts : List Text} (hperm : texts.Perm (pieces t)) :
    if Text.openQuote t = none then
      Text.openQuote (Text.joinWith [';'] texts) = none ∧
        pieces (Text.joinWith [';'] texts) = texts
    else Text.openQuote (Text.joinWith [';'] texts) ≠ none := by
  obtain ⟨before, last, hpieces, hbefore, hlast⟩ := exists_pieces t
  have hperm' := hpieces ▸ hperm
  split
  case isTrue hquote =>
    have hclosed : ∀ u ∈ texts, Text.openQuote u = none := by
      intro u hu
      rcases List.mem_append.mp (hperm'.mem_iff.mp hu) with hu | hu
      · exact hbefore u hu
      · rw [List.mem_singleton.mp hu, hlast, hquote]
    refine ⟨Text.openQuote_joinWith rfl hclosed, ?_⟩
    have hne : texts ≠ [] := by
      rintro rfl
      simpa using hperm'.length_eq
    exact Text.splitWhere_joinWith rfl rfl hne
      (fun u hu => pieces_of_mem_pieces (hperm.mem_iff.mp hu))
      (List.pairwise_of_forall_mem_list fun u hu _ _ => hclosed u hu)
  case isFalse hquote =>
    obtain ⟨early, late, rfl⟩ := List.append_of_mem (hperm'.mem_iff.mpr (by simp : last ∈ _))
    have hothers : (early ++ late).Perm before := by
      have h1 : (last :: (early ++ late)).Perm (last :: before) :=
        List.perm_middle.symm.trans (hperm'.trans (List.perm_append_singleton last before))
      exact h1.cons_inv
    have hclosed : ∀ u ∈ early ++ late, Text.openQuote u = none := fun u hu =>
      hbefore u (hothers.mem_iff.mp hu)
    exact Text.openQuote_joinWith_ne_none rfl (fun u hu => hclosed u (by simp [hu]))
      (hlast ▸ hquote) (fun u hu => hclosed u (by simp [hu]))

/-- The segments of a spec in another order, in which the format segments follow one another as
before, fail to be read just when the spec does, and otherwise they give the same spec. -/
theorem read_reordered (ht : pieces t = formula :: segments) (hperm : segments'.Perm segments)
    (hformat : segments'.filter isFormat = segments.filter isFormat) :
    let t' := Text.joinWith [';'] (formula :: segments')
    Agree (fun s s' => s' = { s with text := t' }) (read t) (read t') := by
  intro t'
  have hquotes := openQuote_joinWith_of_perm (ht ▸ hperm.cons formula)
  split at hquotes
  case isFalse hquote =>
    rw [read_of_open hquote, read_of_open hquotes]
    exact .error
  case isTrue hquote =>
    obtain ⟨hquote', hpieces'⟩ := hquotes
    have hsplit := ht ▸ splitSegments_of_closed hquote
    have hsplit' := hpieces' ▸ splitSegments_of_closed hquote'
    rw [read_of_splitSegments hsplit, read_of_splitSegments hsplit']
    split
    case isTrue => exact .error
    case isFalse =>
      let s : ColumnSpec := { text := t, formula := Text.trim formula }
      have hagree := agree_of_toOption_eq (toOption_addSegments_of_perm hperm hformat s).symm
      -- the text of the spec is the one thing in which the two begin differently
      have htext := addSegments_rewritten t' false s segments'
      change ColumnSpec.addSegments { text := t', formula := Text.trim formula } segments' = _
        at htext
      rw [htext]
      change Agree _ ((s.addSegments segments).mapError _) _
      generalize s.addSegments segments = x, s.addSegments segments' = y at hagree ⊢
      cases hagree with
      | ok h =>
        subst h
        exact .ok (by simp [rewritten])
      | error => exact .error

/-- Flags before and after a name that holds a semicolon and a quote, and segments that say nothing
or twice the same. -/
theorem read_reordered_interleaved :
    let t := "mean(x);;f2;'a;\"b';<x>;^N1; p3 ;<>".toList
    let segments := ["", "f2", "'a;\"b'", "<x>", "^N1", " p3 ", "<>"].map String.toList
    let segments' := ["<>", "f2", "^N1", " p3 ", "'a;\"b'", "", "<x>"].map String.toList
    let t' := "mean(x);<>;f2;^N1; p3 ;'a;\"b';;<x>".toList
    let format : CellFormat := { floatStyle := some (.fixed 2), precision := some 3 }
    pieces t = "mean(x)".toList :: segments ∧ segments'.Perm segments ∧
      segments'.filter isFormat = segments.filter isFormat ∧
      read t = .ok ⟨t, "mean(x)".toList, format, some ⟨.numeric, true, some 1⟩, true,
        some "a;\"b".toList⟩ ∧
      read t' = .ok ⟨t', "mean(x)".toList, format, some ⟨.numeric, true, some 1⟩, true,
        some "a;\"b".toList⟩ := by
  intro t segments segments' t' format
  have ht : pieces t = "mean(x)".toList :: segments := rfl
  have hperm : segments'.Perm segments := by decide
  have hformat : segments'.filter isFormat = segments.filter isFormat := rfl
  have hread : read t = .ok ⟨t, "mean(x)".toList, format, some ⟨.numeric, true, some 1⟩, true,
      some "a;\"b".toList⟩ := by
    dsimp only [t, format]
    decide +kernel
  obtain ⟨s', hs', rfl⟩ := (read_reordered ht hperm hformat).exists_right hread
  exact ⟨ht, hperm, hformat, hread, hs'⟩

end ColumnSpec

end Rollup
