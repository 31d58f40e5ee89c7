import Rollup.Proofs.Csv.Fields
import Rollup.Proofs.Text.Trim

/-! # The lines of written rows

A written row is one line, unless a cell holds a line feed. Then the line breaks inside the quotes
of that cell, and its first part cannot be read. Rows that give a blank line are skipped when they
are read, and all others come back.
-/

namespace Rollup.Csv

/-! ## The characters of a line -/

section

variable {c : Char} {t cell : Text} {cells : List Text}

theorem mem_guarded (h : c ∈ guarded cell) : c = '\'' ∨ c ∈ cell := by
  unfold guarded at h
  split at h
  · exact List.mem_cons.mp h
  · exact .inr h

theorem mem_guarded_of_mem (h : c ∈ cell) : c ∈ guarded cell := by
  unfold guarded
  split
  · exact List.mem_cons_of_mem _ h
  · exact h

theorem mem_encode (h : c ∈ encode t) : c = '"' ∨ c ∈ t := by
  unfold encode at h
  split at h
  case isTrue =>
    simp only [doubleQuotes, List.cons_append, List.mem_cons, List.mem_append, List.mem_flatMap,
      List.mem_nil_iff, or_false] at h
    rcases h with h | ⟨d, hd, h⟩ | h
    · exact .inl h
    · split at h
      · exact .inl (by simpa using h)
      · exact .inr (List.mem_singleton.mp h ▸ hd)
    · exact .inl h
  case isFalse => exact .inr h

theorem mem_renderLine (h : c ∈ renderLine cells) :
    c ∈ [',', '"', '\''] ∨ ∃ cell ∈ cells, c ∈ cell := by
  rcases Text.mem_joinWith h with rfl | ⟨t, ht, hc⟩
  · exact .inl (by simp)
  · obtain ⟨cell, hcell, rfl⟩ := List.mem_map.mp ht
    rcases mem_encode hc with rfl | hc
    · exact .inl (by simp)
    · rcases mem_guarded hc with rfl | hc
      · exact .inl (by simp)
      · exact .inr ⟨cell, hcell, hc⟩

theorem comma_mem_renderLine (h : 2 ≤ cells.length) : ',' ∈ renderLine cells := by
  match cells, h with
  | cell :: next :: later, _ => simp [renderLine_cons]

theorem getLast?_encode_ne (t : Text) : (encode t).getLast? ≠ some '\r' := by
  unfold encode
  split
  case isTrue =>
    rw [List.getLast?_concat]
    decide
  case isFalse h =>
    intro hlast
    exact h (needsQuotes_iff.mpr ⟨'\r', List.mem_of_getLast? hlast, by simp⟩)

theorem getLast?_renderLine_ne (cells : List Text) : (renderLine cells).getLast? ≠ some '\r' := by
  induction cells with
  | nil => simp [renderLine, Text.joinWith]
  | cons cell cells ih =>
    by_cases hcells : cells = []
    · rw [hcells, renderLine_singleton]
      exact getLast?_encode_ne _
    · rw [renderLine_cons hcells, List.getLast?_append_cons, List.getLast?_cons]
      cases hlast : (renderLine cells).getLast? with
      | none => decide
      | some c => simpa [hlast] using ih

/-! ## A line feed in a cell -/

theorem count_doubleQuotes (t : Text) : (doubleQuotes t).count '"' = 2 * t.count '"' := by
  induction t with
  | nil => rfl
  | cons c t ih =>
    by_cases hc : c = '"'
    · simp [doubleQuotes, hc] at ih ⊢
      omega
    · simpa [doubleQuotes, hc] using ih

theorem even_count_encode (t : Text) : Even ((encode t).count '"') := by
  unfold encode
  split
  case isTrue =>
    simp [count_doubleQuotes, Nat.even_add_one]
  case isFalse h =>
    have hnone : '"' ∉ t := fun hmem => h (needsQuotes_iff.mpr ⟨'"', hmem, by simp⟩)
    simp [List.count_eq_zero.mpr hnone]

/-- The line feed of a cell stands inside quotes. -/
theorem exists_encode_feed (h : '\n' ∈ t) :
    ∃ u v, encode t = u ++ '\n' :: v ∧ '\n' ∉ u ∧ Odd (u.count '"') := by
  have hquotes : needsQuotes t := needsQuotes_iff.mpr ⟨'\n', h, by simp⟩
  obtain ⟨u, v, rfl, hu⟩ := List.eq_append_cons_of_mem h
  refine ⟨'"' :: doubleQuotes u, doubleQuotes v ++ ['"'], ?_, ?_, ?_⟩
  · rw [encode, if_pos hquotes]
    simp [doubleQuotes]
  · intro hmem
    rcases List.mem_cons.mp hmem with hmem | hmem
    · cases hmem
    · obtain ⟨d, hd, hmem⟩ := List.mem_flatMap.mp hmem
      split at hmem
      · simp at hmem
      · exact hu (List.mem_singleton.mp hmem ▸ hd)
  · simp [count_doubleQuotes]

theorem exists_renderLine_feed (h : ∃ cell ∈ cells, '\n' ∈ cell) :
    ∃ u v, renderLine cells = u ++ '\n' :: v ∧ '\n' ∉ u ∧ Odd (u.count '"') := by
  induction cells with
  | nil => simp at h
  | cons cell cells ih =>
    by_cases hcell : '\n' ∈ cell
    · obtain ⟨u, v, huv, hu, hodd⟩ := exists_encode_feed (mem_guarded_of_mem hcell)
      by_cases hcells : cells = []
      · exact ⟨u, v, by rw [hcells, renderLine_singleton, renderCell, huv], hu, hodd⟩
      · exact ⟨u, v ++ ',' :: renderLine cells,
          by rw [renderLine_cons hcells, renderCell, huv]; simp, hu, hodd⟩
    · obtain ⟨later, hlater, hmem⟩ := h
      have hlater : later ∈ cells := by
        rcases List.mem_cons.mp hlater with rfl | hlater
        · exact absurd hmem hcell
        · exact hlater
      obtain ⟨u, v, huv, hu, hodd⟩ := ih ⟨later, hlater, hmem⟩
      refine ⟨renderCell cell ++ ',' :: u, v, ?_, ?_, ?_⟩
      · rw [renderLine_cons (List.ne_nil_of_mem hlater), huv]
        simp
      · have hfirst : '\n' ∉ renderCell cell := by
          intro hmem
          rcases mem_encode hmem with hmem | hmem
          · cases hmem
          · rcases mem_guarded hmem with hmem | hmem
            · cases hmem
            · exact hcell hmem
        simp [hfirst, hu]
      · rw [List.count_append, List.count_cons_of_ne (by decide)]
        exact (even_count_encode _).add_odd hodd

end

/-! ## Reading lines -/

section

variable {n : ℕ} {line : Text} {later : List Text}

theorem readLines_of_isBlank (h : Text.isBlank line) :
    readLines n (line :: later) = readLines (n + 1) later := by
  rw [readLines, if_pos h]

theorem readLines_of_readLine? {cells : List Text} (hblank : ¬ Text.isBlank line)
    (h : readLine? line = some cells) :
    readLines n (line :: later) = (readLines (n + 1) later).map (cells :: ·) := by
  rw [readLines, if_neg hblank, h]

theorem readLines_of_unclosed (hodd : Odd (line.count '"')) :
    readLines n (line :: later) = .error (.unclosedField n) := by
  have hblank : ¬ Text.isBlank line := by
    intro hblank
    have hmem : '"' ∈ line := by
      by_contra hnone
      rw [List.count_eq_zero.mpr hnone] at hodd
      exact absurd hodd (by decide)
    exact absurd (Text.isBlank_iff.mp hblank '"' hmem) (by decide)
  have hnone : readLine? line = none := by
    have hread := isSome_readFields?_iff false line
    rw [readLine?, Option.map_eq_none_iff, ← Option.not_isSome_iff_eq_none, hread]
    simpa using hodd
  rw [readLines, if_neg hblank, hnone]

/-- The rows that do not give a blank line. -/
def keptLines (rows : List (List Text)) : List (List Text) :=
  rows.filter fun cells => !Text.isBlank (renderLine cells)

/-- Written rows are read one by one, and what follows them is read with the next number. -/
theorem readLines_renderLine_append {rows : List (List Text)} (h : ∀ cells ∈ rows, cells ≠ []) :
    readLines n (rows.map renderLine ++ later) =
      (readLines (n + rows.length) later).map ((keptLines rows).map (·.map reread) ++ ·) := by
  induction rows generalizing n with
  | nil => cases hlater : readLines n later <;> simp [keptLines, hlater, Except.map]
  | cons cells rows ih =>
    obtain ⟨hcells, hrows⟩ := List.forall_mem_cons.mp h
    rw [List.map_cons, List.cons_append, List.length_cons, Nat.add_comm rows.length,
      ← Nat.add_assoc]
    by_cases hblank : Text.isBlank (renderLine cells)
    · rw [readLines_of_isBlank hblank, ih hrows]
      simp [keptLines, hblank]
    · rw [readLines_of_readLine? hblank (readLine?_renderLine hcells), ih hrows]
      cases hlater : readLines (n + 1 + rows.length) later <;>
        simp [keptLines, hblank, Except.map]

theorem readLines_renderLine {rows : List (List Text)} (h : ∀ cells ∈ rows, cells ≠ []) :
    readLines n (rows.map renderLine) = .ok ((keptLines rows).map (·.map reread)) := by
  have hread : readLines n (rows.map renderLine ++ []) = (readLines (n + rows.length) []).map
      ((keptLines rows).map (·.map reread) ++ ·) := readLines_renderLine_append h
  simpa [readLines, Except.map] using hread

end

/-! ## What is read -/

/-- There are fields, and their characters are from a text. -/
def AreFrom (line : Text) (fs : List Field) : Prop :=
  fs ≠ [] ∧ ∀ f ∈ fs, ∀ c ∈ f.text, c ∈ line

theorem AreFrom.mono {line line' : Text} {fs : List Field} (h : AreFrom line fs)
    (hsub : line ⊆ line') : AreFrom line' fs :=
  ⟨h.1, fun f hf c hc => hsub (h.2 f hf c hc)⟩

theorem AreFrom.push {line : Text} {fs : List Field} (h : AreFrom line fs) (c : Char) :
    AreFrom (c :: line) (Field.push c fs) := by
  obtain ⟨f, fs, rfl⟩ := List.exists_cons_of_ne_nil h.1
  obtain ⟨hf, hfs⟩ := List.forall_mem_cons.mp (h.mono (List.subset_cons_self c line)).2
  refine ⟨List.cons_ne_nil _ _, List.forall_mem_cons.mpr ⟨?_, hfs⟩⟩
  exact List.forall_mem_cons.mpr ⟨List.mem_cons_self, hf⟩

theorem AreFrom.mark {line : Text} {fs : List Field} (h : AreFrom line fs) :
    AreFrom line (Field.mark fs) := by
  obtain ⟨f, fs, rfl⟩ := List.exists_cons_of_ne_nil h.1
  obtain ⟨hf, hfs⟩ := List.forall_mem_cons.mp h.2
  exact ⟨List.cons_ne_nil _ _, List.forall_mem_cons.mpr ⟨hf, hfs⟩⟩

theorem AreFrom.cons_empty {line : Text} {fs : List Field} (h : AreFrom line fs) :
    AreFrom line (.empty :: fs) :=
  ⟨List.cons_ne_nil _ _, List.forall_mem_cons.mpr ⟨by simp [Field.empty], h.2⟩⟩

theorem areFrom_of_readFields? {inside : Bool} {line : Text} {fs : List Field}
    (h : readFields? inside line = some fs) : AreFrom line fs := by
  fun_induction readFields? inside line generalizing fs with
  | case1 => cases h
  | case2 t ih =>
    obtain ⟨gs, hgs, rfl⟩ := Option.map_eq_some_iff.mp h
    exact ((ih hgs).push _).mono (List.subset_cons_self _ _)
  | case3 t _ ih => exact (ih h).mono (List.subset_cons_self _ _)
  | case4 c t _ _ ih =>
    obtain ⟨gs, hgs, rfl⟩ := Option.map_eq_some_iff.mp h
    exact (ih hgs).push c
  | case5 =>
    cases h
    exact ⟨List.cons_ne_nil _ _, by simp [Field.empty]⟩
  | case6 t ih =>
    obtain ⟨gs, hgs, rfl⟩ := Option.map_eq_some_iff.mp h
    exact (ih hgs).mark.mono (List.subset_cons_self _ _)
  | case7 t ih =>
    obtain ⟨gs, hgs, rfl⟩ := Option.map_eq_some_iff.mp h
    exact (ih hgs).cons_empty.mono (List.subset_cons_self _ _)
  | case8 c t _ _ ih =>
    obtain ⟨gs, hgs, rfl⟩ := Option.map_eq_some_iff.mp h
    exact (ih hgs).push c

theorem of_readLine? {line : Text} {cells : List Text} (h : readLine? line = some cells) :
    cells ≠ [] ∧ ∀ cell ∈ cells, ∀ c ∈ cell, c ∈ line := by
  obtain ⟨fs, hfs, rfl⟩ := Option.map_eq_some_iff.mp h
  obtain ⟨hne, hmem⟩ := areFrom_of_readFields? hfs
  refine ⟨by simpa using hne, ?_⟩
  intro cell hcell c hc
  obtain ⟨f, hf, rfl⟩ := List.mem_map.mp hcell
  unfold Field.value at hc
  split at hc
  · exact hmem f hf c hc
  · exact hmem f hf c (Text.mem_of_mem_trim hc)

theorem exists_of_mem_readLines {n : ℕ} {ls : List Text} {rows : List (List Text)}
    (h : readLines n ls = .ok rows) {cells : List Text} (hcells : cells ∈ rows) :
    ∃ line ∈ ls, readLine? line = some cells := by
  induction ls generalizing n rows with
  | nil =>
    cases h
    cases hcells
  | cons line ls ih =>
    rw [readLines] at h
    split at h
    · obtain ⟨line', hline', hread⟩ := ih h hcells
      exact ⟨line', List.mem_cons_of_mem _ hline', hread⟩
    · split at h
      · cases h
      case h_2 first hfirst =>
        obtain ⟨later, hlater, rfl⟩ := exists_of_map_eq_ok h
        rcases List.mem_cons.mp hcells with rfl | hcells
        · exact ⟨line, List.mem_cons_self, hfirst⟩
        · obtain ⟨line', hline', hread⟩ := ih hlater hcells
          exact ⟨line', List.mem_cons_of_mem _ hline', hread⟩

end Rollup.Csv
