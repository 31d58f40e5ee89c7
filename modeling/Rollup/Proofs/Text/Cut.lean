import Mathlib.Data.List.Basic
import Mathlib.Data.List.TakeWhile
import Rollup.Text.Cut

/-! # Cutting two texts in a row

A scan goes on from one text into the next, so that the last piece of the one and the first of the
other become one piece. Every other piece is a piece of one of the texts. A run of characters that
is taken from the first text ends there if the next text does not go on with it.
-/

namespace Rollup.Text

section

variable {σ : Type} {step : σ → Char → σ} {cuts : σ → Char → Bool} {s : σ}

theorem splitWhere_cons_of_cuts {c : Char} (h : cuts s c) (t : Text) :
    splitWhere step cuts s (c :: t) = [] :: splitWhere step cuts (step s c) t :=
  if_pos h

theorem splitWhere_cons_of_not_cuts {c : Char} (h : ¬ cuts s c) {t first : Text}
    {after : List Text} (ht : splitWhere step cuts (step s c) t = first :: after) :
    splitWhere step cuts s (c :: t) = (c :: first) :: after := by
  unfold splitWhere
  dsimp only
  rw [if_neg h, ht]
  rfl

theorem splitWhere_ne_nil (s : σ) (t : Text) : splitWhere step cuts s t ≠ [] := by
  cases t with
  | nil => exact List.cons_ne_nil _ _
  | cons c t =>
    unfold splitWhere
    dsimp only
    split
    · exact List.cons_ne_nil _ _
    · cases splitWhere step cuts (step s c) t <;> exact List.cons_ne_nil _ _

theorem exists_splitWhere_eq_append (s : σ) (t : Text) :
    ∃ before last, splitWhere step cuts s t = before ++ [last] :=
  (List.eq_nil_or_concat' _).resolve_left (splitWhere_ne_nil s t)

/-- A character ends an empty piece, or belongs to the piece that follows, which may be the last. -/
theorem splitWhere_cons_cases {c : Char} {t first : Text} {before : List Text}
    (h : splitWhere step cuts s (c :: t) = before ++ [first]) :
    ∃ before' first', splitWhere step cuts (step s c) t = before' ++ [first'] ∧
      ((cuts s c ∧ before = [] :: before' ∧ first = first') ∨
        (¬ cuts s c ∧ before' = [] ∧ before = [] ∧ first = c :: first') ∨
        ¬ cuts s c ∧ ∃ piece pieces, before' = piece :: pieces ∧
          before = (c :: piece) :: pieces ∧ first = first') := by
  obtain ⟨before', first', ht⟩ := exists_splitWhere_eq_append (step s c) t
  refine ⟨before', first', ht, ?_⟩
  by_cases hc : cuts s c
  · rw [splitWhere_cons_of_cuts hc, ht] at h
    replace h : ([] :: before') ++ [first'] = before ++ [first] := h
    obtain ⟨hbefore, hfirst⟩ := List.append_inj' h rfl
    exact .inl ⟨hc, hbefore.symm, (List.singleton_inj.mp hfirst).symm⟩
  · cases before' with
    | nil =>
      rw [splitWhere_cons_of_not_cuts hc ht] at h
      replace h : [] ++ [c :: first'] = before ++ [first] := h
      obtain ⟨hbefore, hfirst⟩ := List.append_inj' h rfl
      exact .inr (.inl ⟨hc, rfl, hbefore.symm, (List.singleton_inj.mp hfirst).symm⟩)
    | cons piece pieces =>
      rw [splitWhere_cons_of_not_cuts hc ht] at h
      replace h : ((c :: piece) :: pieces) ++ [first'] = before ++ [first] := h
      obtain ⟨hbefore, hfirst⟩ := List.append_inj' h rfl
      exact .inr (.inr ⟨hc, piece, pieces, rfl, hbefore.symm, (List.singleton_inj.mp hfirst).symm⟩)

theorem splitWhere_nil_eq_append {first : Text} {before : List Text}
    (h : splitWhere step cuts s [] = before ++ [first]) : before = [] ∧ first = [] := by
  replace h : [] ++ [[]] = before ++ [first] := h
  obtain ⟨hbefore, hfirst⟩ := List.append_inj' h rfl
  exact ⟨hbefore.symm, (List.singleton_inj.mp hfirst).symm⟩

/-- The last piece of one text goes on in the next one. -/
theorem splitWhere_append {t u first last : Text} {before after : List Text}
    (ht : splitWhere step cuts s t = before ++ [first])
    (hu : splitWhere step cuts (t.foldl step s) u = last :: after) :
    splitWhere step cuts s (t ++ u) = before ++ (first ++ last) :: after := by
  induction t generalizing s before first with
  | nil =>
    obtain ⟨rfl, rfl⟩ := splitWhere_nil_eq_append ht
    exact hu
  | cons c t ih =>
    -- the induction is over the first text, in any state; only the last piece of it can grow
    obtain ⟨before', first', ht', hcases⟩ := splitWhere_cons_cases ht
    have hih := ih ht' hu
    rcases hcases with ⟨hc, rfl, rfl⟩ | ⟨hc, rfl, rfl, rfl⟩ | ⟨hc, piece, pieces, rfl, rfl, rfl⟩
    · rw [List.cons_append, splitWhere_cons_of_cuts hc, hih]
      rfl
    · exact splitWhere_cons_of_not_cuts hc hih
    · exact splitWhere_cons_of_not_cuts hc hih

/-- A scan leaves a text whole when it cuts at none of its characters in any state. -/
theorem splitWhere_of_not_cuts {t : Text} (h : ∀ a ∈ t, ∀ s, ¬ cuts s a) (s : σ) :
    splitWhere step cuts s t = [t] := by
  induction t generalizing s with
  | nil => rfl
  | cons a t ih =>
    obtain ⟨ha, ht⟩ := List.forall_mem_cons.mp h
    exact splitWhere_cons_of_not_cuts (ha s) (ih ht (step s a))

theorem foldl_of_still {t : Text} (h : ∀ c ∈ t, step s c = s) : t.foldl step s = s := by
  induction t with
  | nil => rfl
  | cons c t ih =>
    obtain ⟨hc, ht⟩ := List.forall_mem_cons.mp h
    rw [List.foldl_cons, hc]
    exact ih ht

/-- A scan whose state stays as it is, and does not cut, leaves a text whole. -/
theorem splitWhere_of_still {t : Text} (h : ∀ c ∈ t, step s c = s ∧ ¬ cuts s c) :
    splitWhere step cuts s t = [t] := by
  induction t with
  | nil => rfl
  | cons c t ih =>
    obtain ⟨⟨hstep, hcuts⟩, ht⟩ := List.forall_mem_cons.mp h
    apply splitWhere_cons_of_not_cuts hcuts
    rw [hstep]
    exact ih ht

/-- A scan that starts anew after every cut has gone through the last piece only. -/
theorem foldl_last_piece {start : σ} (hstart : ∀ s c, cuts s c → step s c = start) {t first : Text}
    {before : List Text} (h : splitWhere step cuts s t = before ++ [first]) :
    first.foldl step (if before = [] then s else start) = t.foldl step s := by
  induction t generalizing s before first with
  | nil =>
    obtain ⟨rfl, rfl⟩ := splitWhere_nil_eq_append h
    rfl
  | cons c t ih =>
    obtain ⟨before', first', ht, hcases⟩ := splitWhere_cons_cases h
    rw [List.foldl_cons, ← ih ht]
    rcases hcases with ⟨hc, rfl, rfl⟩ | ⟨hc, rfl, rfl, rfl⟩ | ⟨hc, piece, pieces, rfl, rfl, rfl⟩
    · rw [if_neg (List.cons_ne_nil _ _), hstart s c hc, ite_self]
    · rfl
    · rfl

/-- What holds of the states in which a scan cuts holds at the end of every piece but the last. -/
theorem pairwise_splitWhere {start : σ} {P : σ → Prop}
    (hstart : ∀ s c, cuts s c → step s c = start) (hcuts : ∀ s c, cuts s c → P s)
    {t first : Text} {rest : List Text} (h : splitWhere step cuts s t = first :: rest) :
    (rest ≠ [] → P (first.foldl step s)) ∧
      rest.Pairwise fun piece _ => P (piece.foldl step start) := by
  induction t generalizing s first rest with
  | nil =>
    cases h
    exact ⟨fun hne => absurd rfl hne, .nil⟩
  | cons c t ih =>
    obtain ⟨first', rest', ht⟩ := List.exists_cons_of_ne_nil (splitWhere_ne_nil (step s c) t)
    obtain ⟨hfirst, hrest⟩ := ih ht
    by_cases hc : cuts s c
    · rw [splitWhere_cons_of_cuts hc, ht] at h
      cases h
      rw [hstart s c hc] at hfirst
      refine ⟨fun _ => hcuts s c hc, .cons (fun piece hpiece => ?_) hrest⟩
      exact hfirst (List.ne_nil_of_mem hpiece)
    · rw [splitWhere_cons_of_not_cuts hc ht] at h
      cases h
      exact ⟨hfirst, hrest⟩

/-- What holds of the states in which a scan cuts, and of its last one, holds at the end of every
piece, when the scan starts anew after every cut. -/
theorem splitWhere_pieces {start : σ} {P : σ → Prop}
    (hstart : ∀ s c, cuts s c → step s c = start) (hcuts : ∀ s c, cuts s c → P s)
    {t first : Text} {rest : List Text} (hend : P (t.foldl step s))
    (h : splitWhere step cuts s t = first :: rest) :
    P (first.foldl step s) ∧ ∀ piece ∈ rest, P (piece.foldl step start) := by
  obtain ⟨hfirst, hrest⟩ := pairwise_splitWhere hstart hcuts h
  rcases List.eq_nil_or_concat' rest with rfl | ⟨before, last, rfl⟩
  · have hlast : first.foldl step s = t.foldl step s :=
      foldl_last_piece hstart (h.trans (List.nil_append _).symm)
    rw [hlast]
    exact ⟨hend, by simp⟩
  · have hlast := foldl_last_piece hstart (h.trans (List.cons_append ..).symm)
    rw [if_neg (List.cons_ne_nil _ _)] at hlast
    refine ⟨hfirst (by simp), fun piece hpiece => ?_⟩
    rcases List.mem_append.mp hpiece with hpiece | hpiece
    · exact (List.pairwise_append.mp hrest).2.2 piece hpiece last List.mem_cons_self
    · rw [List.mem_singleton.mp hpiece, hlast]
      exact hend

/-- A piece is not cut again. -/
theorem splitWhere_whole {start : σ} (hstart : ∀ s c, cuts s c → step s c = start)
    {t first : Text} {rest : List Text} (h : splitWhere step cuts s t = first :: rest) :
    splitWhere step cuts s first = [first] ∧
      ∀ piece ∈ rest, splitWhere step cuts start piece = [piece] := by
  induction t generalizing s first rest with
  | nil =>
    cases h
    exact ⟨rfl, by simp⟩
  | cons c t ih =>
    obtain ⟨first', rest', ht⟩ := List.exists_cons_of_ne_nil (splitWhere_ne_nil (step s c) t)
    obtain ⟨hfirst, hrest⟩ := ih ht
    by_cases hc : cuts s c
    · rw [splitWhere_cons_of_cuts hc, ht] at h
      cases h
      rw [hstart s c hc] at hfirst
      exact ⟨rfl, List.forall_mem_cons.mpr ⟨hfirst, hrest⟩⟩
    · rw [splitWhere_cons_of_not_cuts hc ht] at h
      cases h
      exact ⟨splitWhere_cons_of_not_cuts hc hfirst, hrest⟩

/-- Texts that the scan leaves whole, and that it ends where it started, are its pieces again when
they stand side by side with a cut between them. -/
theorem splitWhere_joinWith {start : σ} {separator : Char} (hcuts : cuts start separator)
    (hstep : step start separator = start) {pieces : List Text} (hne : pieces ≠ [])
    (hwhole : ∀ piece ∈ pieces, splitWhere step cuts start piece = [piece])
    (hend : pieces.Pairwise fun piece _ => piece.foldl step start = start) :
    splitWhere step cuts start (joinWith [separator] pieces) = pieces := by
  induction pieces with
  | nil => exact absurd rfl hne
  | cons piece pieces ih =>
    obtain ⟨hpiece, hpieces⟩ := List.forall_mem_cons.mp hwhole
    cases pieces with
    | nil =>
      rw [joinWith, List.intercalate_singleton]
      exact hpiece
    | cons next pieces =>
      obtain ⟨hends, hend⟩ := List.pairwise_cons.mp hend
      have hrest : splitWhere step cuts (piece.foldl step start)
          (separator :: joinWith [separator] (next :: pieces)) = [] :: next :: pieces := by
        rw [hends next List.mem_cons_self, splitWhere_cons_of_cuts hcuts, hstep,
          ih (List.cons_ne_nil _ _) hpieces hend]
      have hpiece : splitWhere step cuts start piece = [] ++ [piece] := hpiece
      have hjoined := splitWhere_append hpiece hrest
      rw [List.append_nil] at hjoined
      rw [joinWith, List.intercalate_cons_cons, List.append_assoc]
      exact hjoined

end

/-! ## Runs of characters -/

/-- A text between two quotes. -/
def quoted (quote : Char) (t : Text) : Text := quote :: t ++ [quote]

theorem takeWhile_append {p : Char → Bool} {t rest : Text} (ht : ∀ c ∈ t, p c)
    (hrest : ∀ c ∈ rest.head?, p c = false) : (t ++ rest).takeWhile p = t := by
  have hend : rest.takeWhile p = [] := by
    cases rest with
    | nil => rfl
    | cons c rest => simp [hrest c rfl]
  rw [List.takeWhile_append_of_pos ht, hend, List.append_nil]

theorem dropWhile_append {p : Char → Bool} {t rest : Text} (ht : ∀ c ∈ t, p c)
    (hrest : ∀ c ∈ rest.head?, p c = false) : (t ++ rest).dropWhile p = rest := by
  rw [List.dropWhile_append_of_pos ht, List.dropWhile_eq_self_iff]
  intro hpos
  simp [hrest _ (List.head?_eq_getElem? ▸ List.getElem?_eq_getElem hpos)]

theorem takeWhile_ne_append {c : Char} {t rest : Text} (h : c ∉ t)
    (hrest : ∀ d ∈ rest.head?, d = c) : (t ++ rest).takeWhile (· != c) = t := by
  apply takeWhile_append
  · intro d hd
    have hne : d ≠ c := fun heq => h (heq ▸ hd)
    simpa using hne
  · intro d hd
    simp [hrest d hd]

theorem not_mem_takeWhile_ne (c : Char) (t : Text) : c ∉ t.takeWhile (· != c) := by
  intro h
  simpa using List.mem_takeWhile_imp h

theorem of_mem_head?_dropWhile {α : Type} {p : α → Bool} {a : α} {l : List α}
    (h : a ∈ (l.dropWhile p).head?) : p a = false := by
  have hnot := List.head?_dropWhile_not p l
  rw [h] at hnot
  simpa using hnot

theorem eq_of_mem_head?_dropWhile_ne {c d : Char} {t : Text}
    (h : d ∈ (t.dropWhile (· != c)).head?) : d = c := by
  simpa using of_mem_head?_dropWhile h

theorem exists_eq_takeWhile_ne_append {c : Char} {t : Text}
    (h : (t.takeWhile (· != c)).length ≠ t.length) :
    ∃ rest, t = t.takeWhile (· != c) ++ c :: rest := by
  have hsplit := List.takeWhile_append_dropWhile (p := (· != c)) (l := t)
  cases hrest : t.dropWhile (· != c) with
  | nil =>
    rw [hrest, List.append_nil] at hsplit
    exact absurd (congrArg List.length hsplit) h
  | cons d rest =>
    obtain rfl : d = c := by
      apply eq_of_mem_head?_dropWhile_ne (t := t)
      simp [hrest]
    exact ⟨rest, by rw [← hrest, hsplit]⟩

theorem drop_length_takeWhile {α : Type} (p : α → Bool) (l : List α) :
    l.drop (l.takeWhile p).length = l.dropWhile p := by
  induction l with
  | nil => rfl
  | cons a l ih => by_cases ha : p a <;> simp [ha, ih]

/-! ## Offsets -/

/-- An offset cuts a text in one way. -/
theorem append_inj_of_byteSize {s s' t t' : Text} (hsize : byteSize s = byteSize s')
    (h : s ++ t = s' ++ t') : s = s' ∧ t = t' := by
  induction s generalizing s' with
  | nil =>
    cases s' with
    | nil => exact ⟨rfl, h⟩
    | cons c s' =>
      have hpos := c.utf8Size_pos
      simp only [byteSize_nil, byteSize_cons] at hsize
      omega
  | cons c s ih =>
    cases s' with
    | nil =>
      have hpos := c.utf8Size_pos
      simp only [byteSize_nil, byteSize_cons] at hsize
      omega
    | cons c' s' =>
      obtain ⟨rfl, htail⟩ := List.cons_eq_cons.mp h
      obtain ⟨rfl, ht⟩ := ih (Nat.add_left_cancel hsize) htail
      exact ⟨rfl, ht⟩

end Rollup.Text
