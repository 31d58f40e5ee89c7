import Mathlib.Data.List.Basic
import Rollup.Text.Basic

/-! # Pieces and lines

Pieces that are joined come back when the text is split, and lines that are written with line feeds
come back when it is read by lines.
-/

namespace Rollup.Text

/-! ## Starts and ends -/

theorem after?_eq_some_iff {start t u : Text} : after? start t = some u ↔ t = start ++ u := by
  fun_induction after? start t with
  | case1 t => simp [eq_comm]
  | case2 => simp
  | case3 start c t ih => simpa using ih
  | case4 c start d t hne => simp [Ne.symm hne]

theorem isSome_after?_iff {start t : Text} : (after? start t).isSome ↔ start <+: t := by
  simp only [Option.isSome_iff_exists, after?_eq_some_iff]
  exact exists_congr fun _ => eq_comm

theorem before?_eq_some_iff {last : Char} {t u : Text} :
    before? last t = some u ↔ t = u ++ [last] := by
  unfold before?
  constructor
  · intro h
    split at h
    case isTrue hlast =>
      cases h
      exact (List.dropLast_append_getLast? last hlast).symm
    case isFalse => cases h
  · rintro rfl
    simp

/-! ## Splitting -/

theorem consFirst_eq_modifyHead {c : Char} {ts : List Text} (h : ts ≠ []) :
    consFirst c ts = ts.modifyHead (c :: ·) := by
  cases ts with
  | nil => exact absurd rfl h
  | cons t ts => rfl

theorem split_eq_splitOn (c : Char) (t : Text) : split c t = t.splitOn c := by
  induction t with
  | nil => rfl
  | cons d t ih =>
    rw [split, List.splitOn_cons_eq_if_modifyHead, ih]
    by_cases h : d = c
    · simp [h]
    · simp [h, consFirst_eq_modifyHead (List.splitOn_ne_nil c t)]

theorem split_ne_nil (c : Char) (t : Text) : split c t ≠ [] := by
  rw [split_eq_splitOn]
  exact List.splitOn_ne_nil c t

theorem split_joinWith {c : Char} {ts : List Text} (h : ∀ t ∈ ts, c ∉ t) (hne : ts ≠ []) :
    split c (joinWith [c] ts) = ts := by
  rw [split_eq_splitOn]
  exact List.splitOn_intercalate c h hne

theorem joinWith_split (c : Char) (t : Text) : joinWith [c] (split c t) = t := by
  rw [split_eq_splitOn]
  exact List.intercalate_splitOn c

theorem mem_joinWith {separator c : Char} {ts : List Text} (h : c ∈ joinWith [separator] ts) :
    c = separator ∨ ∃ t ∈ ts, c ∈ t := by
  unfold joinWith at h
  induction ts with
  | nil => cases h
  | cons t ts ih =>
    cases ts with
    | nil =>
      rw [List.intercalate_singleton] at h
      exact .inr ⟨t, List.mem_cons_self, h⟩
    | cons u ts =>
      rw [List.intercalate_cons_cons, List.mem_append, List.mem_append, List.mem_singleton] at h
      rcases h with (h | h) | h
      · exact .inr ⟨t, List.mem_cons_self, h⟩
      · exact .inl h
      · rcases ih h with h | ⟨v, hv, hc⟩
        · exact .inl h
        · exact .inr ⟨v, List.mem_cons_of_mem _ hv, hc⟩

theorem mem_consFirst {c : Char} {ts : List Text} {t : Text} (h : t ∈ consFirst c ts) :
    (∃ s, t = c :: s ∧ (s = [] ∨ s ∈ ts)) ∨ t ∈ ts := by
  cases ts with
  | nil => exact .inl ⟨[], List.mem_singleton.mp h, .inl rfl⟩
  | cons s ts =>
    rcases List.mem_cons.mp h with rfl | h
    · exact .inl ⟨s, rfl, .inr List.mem_cons_self⟩
    · exact .inr (List.mem_cons_of_mem _ h)

/-- The pieces hold characters of the text, and none of the separators. -/
theorem of_mem_split {c d : Char} {t piece : Text} (h : piece ∈ split c t) (hd : d ∈ piece) :
    d ≠ c ∧ d ∈ t := by
  induction t generalizing piece with
  | nil =>
    rw [split, List.mem_singleton] at h
    subst h
    cases hd
  | cons e t ih =>
    unfold split at h
    split at h
    case isTrue he =>
      rcases List.mem_cons.mp h with rfl | h
      · cases hd
      · exact ⟨(ih h hd).1, List.mem_cons_of_mem _ (ih h hd).2⟩
    case isFalse he =>
      rcases mem_consFirst h with ⟨s, rfl, hs⟩ | h
      · rcases List.mem_cons.mp hd with rfl | hd
        · exact ⟨he, List.mem_cons_self⟩
        · rcases hs with rfl | hs
          · cases hd
          · exact ⟨(ih hs hd).1, List.mem_cons_of_mem _ (ih hs hd).2⟩
      · exact ⟨(ih h hd).1, List.mem_cons_of_mem _ (ih h hd).2⟩

/-! ## Lines -/

theorem newline_not_mem_lines {t line : Text} (h : line ∈ lines t) : '\n' ∉ line := by
  fun_induction lines t generalizing line with
  | case1 => cases h
  | case2 t ih =>
    rcases List.mem_cons.mp h with rfl | h
    · simp
    · exact ih h
  | case3 t ih =>
    rcases List.mem_cons.mp h with rfl | h
    · simp
    · exact ih h
  | case4 c t hfeed hreturn ih =>
    rcases mem_consFirst h with ⟨s, rfl, hs⟩ | h
    · have hne : '\n' ≠ c := fun he => hfeed he.symm
      rcases hs with rfl | hs
      · simpa using hne
      · simpa [hne] using ih hs
    · exact ih h

/-- A line that does not end with a carriage return is read up to its line feed. -/
theorem lines_append {line rest : Text} (h : '\n' ∉ line) (hlast : line.getLast? ≠ some '\r') :
    lines (line ++ '\n' :: rest) = line :: lines rest := by
  induction line with
  | nil => rfl
  | cons c line ih =>
    rw [List.mem_cons, not_or] at h
    obtain ⟨hc, hline⟩ := h
    rw [List.cons_append, lines, ih]
    · rfl
    · exact hline
    · intro hl
      apply hlast
      rw [List.getLast?_cons, hl]
      rfl
    · intro he
      exact hc he.symm
    · intro t hcr ht
      -- a carriage return right before the line feed would be the last character of the line
      cases line with
      | nil => exact hlast (congrArg _ hcr)
      | cons d line =>
        injection ht with hd
        exact hline (hd ▸ List.mem_cons_self)

/-- A carriage return right before the line feed does not belong to the line. -/
theorem lines_append_return {line : Text} (h : '\n' ∉ line) (rest : Text) :
    lines (line ++ '\r' :: '\n' :: rest) = line :: lines rest := by
  induction line with
  | nil => rfl
  | cons c line ih =>
    rw [List.mem_cons, not_or] at h
    rw [List.cons_append, lines, ih h.2]
    · rfl
    · exact Ne.symm h.1
    · rintro t - ht
      -- the character after this one is the return, or one of the line
      cases line with
      | nil => exact absurd (List.head_eq_of_cons_eq ht) (by decide)
      | cons d line => exact h.2 ((List.head_eq_of_cons_eq ht) ▸ List.mem_cons_self)

theorem exists_lines_append {u : Text} (h : '\n' ∉ u) (rest : Text) :
    ∃ line, lines (u ++ '\n' :: rest) = line :: lines rest ∧ (u = line ∨ u = line ++ ['\r']) := by
  by_cases hlast : u.getLast? = some '\r'
  · obtain ⟨line, rfl⟩ := List.getLast?_eq_some_iff.mp hlast
    have hline : '\n' ∉ line := fun hmem => h (List.mem_append_left _ hmem)
    refine ⟨line, ?_, .inr rfl⟩
    rw [List.append_assoc, List.singleton_append, lines_append_return hline]
  · exact ⟨u, lines_append h hlast, .inl rfl⟩

theorem lines_flatMap_append {ls : List Text} (h : ∀ l ∈ ls, '\n' ∉ l ∧ l.getLast? ≠ some '\r')
    (rest : Text) : lines (ls.flatMap (· ++ ['\n']) ++ rest) = ls ++ lines rest := by
  induction ls with
  | nil => rfl
  | cons l ls ih =>
    obtain ⟨hl, hls⟩ := List.forall_mem_cons.mp h
    rw [List.flatMap_cons, List.append_assoc, List.append_assoc, List.singleton_append,
      lines_append hl.1 hl.2, ih hls, List.cons_append]

theorem lines_flatMap {ls : List Text} (h : ∀ l ∈ ls, '\n' ∉ l ∧ l.getLast? ≠ some '\r') :
    lines (ls.flatMap (· ++ ['\n'])) = ls := by
  simpa [lines] using lines_flatMap_append h []

theorem lines_ne_nil {t : Text} (h : t ≠ []) : lines t ≠ [] := by
  fun_cases lines t with
  | case1 => exact absurd rfl h
  | case2 => simp
  | case3 => simp
  | case4 c t => cases lines t <;> simp [consFirst]

theorem lines_of_no_break {t : Text} (hne : t ≠ []) (h : '\n' ∉ t) : lines t = [t] := by
  induction t with
  | nil => exact absurd rfl hne
  | cons c t ih =>
    simp only [List.mem_cons, not_or] at h
    have hline : lines (c :: t) = consFirst c (lines t) := by
      rw [lines]
      · exact Ne.symm h.1
      · rintro u - rfl
        simp at h
    rw [hline]
    by_cases ht : t = []
    · simp [ht, lines, consFirst]
    · rw [ih ht h.2]
      rfl

/-- What follows a line break is read by lines on its own. -/
theorem lines_append_of_break {s : Text} (h : s = [] ∨ s.getLast? = some '\n') (t : Text) :
    lines (s ++ t) = lines s ++ lines t := by
  have hlater : ∀ {c : Char} {s : Text}, (c :: s = [] ∨ (c :: s).getLast? = some '\n') →
      s = [] ∨ s.getLast? = some '\n' := by
    intro c s h
    cases s with
    | nil => exact .inl rfl
    | cons d s => simpa [List.getLast?_cons_cons] using h
  fun_induction lines s with
  | case1 => rfl
  | case2 s ih => simp [lines, ih (hlater h)]
  | case3 s ih => simp [lines, ih (hlater (hlater h))]
  | case4 c s hfeed hreturn ih =>
    have hs : s ≠ [] := by
      rintro rfl
      simp at h
      exact hfeed h
    have hline : lines (c :: s ++ t) = consFirst c (lines (s ++ t)) := by
      rw [List.cons_append, lines]
      · exact hfeed
      · intro u hc hu
        obtain ⟨d, s, rfl⟩ := List.exists_cons_of_ne_nil hs
        injection hu with hd
        exact hreturn s hc (hd ▸ rfl)
    obtain ⟨line, ls, hls⟩ := List.exists_cons_of_ne_nil (lines_ne_nil hs)
    rw [hline, ih (hlater h), hls]
    rfl

theorem exists_break (t : Text) : ∃ s u, t = s ++ u ∧ (s = [] ∨ s.getLast? = some '\n') ∧
    '\n' ∉ u := by
  induction t with
  | nil => exact ⟨[], [], rfl, .inl rfl, by simp⟩
  | cons c t ih =>
    obtain ⟨s, u, rfl, hs, hu⟩ := ih
    cases s with
    | cons d s => exact ⟨c :: d :: s, u, rfl, .inr (by simpa using hs), hu⟩
    | nil =>
      by_cases hc : c = '\n'
      · exact ⟨[c], u, rfl, .inr (by simp [hc]), hu⟩
      · exact ⟨[], c :: u, rfl, .inl rfl, by simp [hu, Ne.symm hc]⟩

end Rollup.Text
