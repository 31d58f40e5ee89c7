import Rollup.Proofs.Pipe.Roundtrip
import Rollup.Proofs.Text.Cut

/-! # The rows of a document

The tables of a document are its runs of table lines, and their headers and data rows are the cells
of the lines that are no rules. A line with anything but the marks of a rule is one only if it
starts with a pipe and a dash.
-/

namespace Rollup.Pipe

/-! ## Tables and their lines -/

/-- The runs of table lines, in order. -/
def tableRuns (ls : List Text) : List (List Text) :=
  (ls.splitOnP fun line => !isTableLine line).filter (· ≠ [])

/-- What a run of table lines has in its cells. -/
def rowsOf (run : List Text) : List (List Text) :=
  (run.filter fun line => !isRule line).map splitCells

theorem filterMap_readRow (run : List Text) :
    (run.map readRow).filterMap Row.cells? = rowsOf run := by
  rw [rowsOf, List.filterMap_map]
  induction run with
  | nil => rfl
  | cons line run ih =>
    cases hrule : isRule line with
    | true => simpa [readRow, hrule, Row.cells?] using ih
    | false => simpa [readRow, hrule, Row.cells?] using ih

theorem lines_readTable (run : List Text) : (readTable run).lines = rowsOf run := by
  rw [Table.lines_eq, readTable_eq, written_ofWritten, filterMap_cells_trimSeparators,
    filterMap_readRow]

theorem tableRuns_cons_of_not {line : Text} (h : ¬ isTableLine line) (ls : List Text) :
    tableRuns (line :: ls) = tableRuns ls := by
  rw [tableRuns, List.splitOnP_cons_eq_if_modifyHead, if_pos (by simpa using h)]
  rfl

/-- Lines that follow each other, each of a table, with no such line before or after them. -/
structure IsRun (ls above run below : List Text) : Prop where
  eq : ls = above ++ run ++ below
  ne_nil : run ≠ []
  inside : ∀ line ∈ run, isTableLine line
  start : ∀ line ∈ above.getLast?, ¬ isTableLine line
  stop : ∀ line ∈ below.head?, ¬ isTableLine line

theorem isRun_takeWhile {line : Text} (h : isTableLine line) (ls : List Text) :
    IsRun (line :: ls) [] (line :: ls.takeWhile isTableLine)
      (ls.drop (ls.takeWhile isTableLine).length) where
  eq := by simp [Text.drop_length_takeWhile]
  ne_nil := List.cons_ne_nil _ _
  inside := List.forall_mem_cons.mpr ⟨h, fun _ => List.mem_takeWhile_imp⟩
  start := by simp
  stop := by
    intro next hnext
    rw [Text.drop_length_takeWhile] at hnext
    simpa using Text.of_mem_head?_dropWhile hnext

theorem IsRun.tableRuns_eq {ls run rest : List Text} (h : IsRun ls [] run rest) :
    tableRuns ls = run :: tableRuns rest := by
  obtain ⟨heq, hne, hrun, -, hrest⟩ := h
  have hinside : ∀ line ∈ run, (!isTableLine line) = false := by simpa using hrun
  rw [heq, List.nil_append]
  cases rest with
  | nil =>
    rw [List.append_nil, tableRuns, List.splitOnP_eq_singleton hinside]
    simp [tableRuns, hne]
  | cons line rest =>
    have hline : ¬ isTableLine line := hrest line rfl
    rw [tableRuns_cons_of_not hline, tableRuns,
      List.splitOnP_append_cons_of_forall_mem hinside line (by simpa using hline)]
    exact List.filter_cons_of_pos (by simpa using hne)

/-- The runs hold all table lines and no others. -/
theorem flatten_tableRuns (ls : List Text) : (tableRuns ls).flatten = ls.filter isTableLine := by
  rw [tableRuns, List.flatten_filter_ne_nil]
  induction ls with
  | nil => rfl
  | cons line ls ih =>
    rw [List.splitOnP_cons_eq_if_modifyHead]
    cases hline : isTableLine line with
    | false => simpa [hline] using ih
    | true =>
      obtain ⟨run, runs, hruns⟩ := List.exists_cons_of_ne_nil
        (List.splitOnP_ne_nil (fun line => !isTableLine line) ls)
      rw [hruns] at ih ⊢
      simpa [hline] using ih

/-- Every run of table lines is a table. -/
theorem map_snd_readTables (name : Option Text) (ls : List Text) :
    (readTables name ls).map Prod.snd = (tableRuns ls).map readTable := by
  fun_induction readTables name ls with
  | case1 => rfl
  | case2 name line ls hline more ih =>
    rw [(isRun_takeWhile hline ls).tableRuns_eq, List.map_cons, List.map_cons, ih]
  | case3 name line ls hline ih => rw [ih, tableRuns_cons_of_not hline]

/-- The tables have the rows of the lines of their runs. -/
theorem lines_readTables (name : Option Text) (ls : List Text) :
    (readTables name ls).map (·.2.lines) = (tableRuns ls).map rowsOf := by
  have hlines := congrArg (List.map Table.lines) (map_snd_readTables name ls)
  simpa [Function.comp_def, lines_readTable] using hlines

/-! ## The texts between pipes -/

/-- The marks of a rule. -/
def ruleMarks : Text := ['|', '-', '+', ':']

/-- Whether a line has anything but the marks of a rule and white space. -/
def HoldsOther (line : Text) : Prop := ∃ c ∈ line, c ∉ ruleMarks ∧ ¬ Text.isWhite c

/-- The texts between the pipes of a line, of which the last one may be missing. -/
structure CutAtPipes (line : Text) (texts : List Text) : Prop where
  ne_nil : texts ≠ []
  no_pipe : ∀ text ∈ texts, '|' ∉ text
  spelled : Text.trim line = barLine '|' texts ∨
    Text.trim line = '|' :: Text.joinWith ['|'] texts ∧ (Text.trim line).getLast? ≠ some '|'

section

variable {line : Text} {texts : List Text}

theorem CutAtPipes.splitCells_eq (h : CutAtPipes line texts) :
    splitCells line = texts.map Text.trim := by
  rw [Pipe.splitCells_eq]
  have hbetween : between line = Text.joinWith ['|'] texts := by
    rcases h.spelled with hline | ⟨hline, hopen⟩
    · rw [between, hline]
      simp [barLine, Text.after?, Text.before?]
    · have hlast : (Text.joinWith ['|'] texts).getLast? ≠ some '|' := by
        intro hlast
        apply hopen
        rw [hline, List.getLast?_cons, hlast]
        rfl
      rw [between, hline]
      simp [Text.after?, Text.before?, hlast]
  rw [hbetween, Text.split_joinWith h.no_pipe h.ne_nil]

theorem CutAtPipes.of_split {t : Text} (h : Text.trim line = '|' :: t ++ ['|'] ∨
    Text.trim line = '|' :: t ∧ (Text.trim line).getLast? ≠ some '|') :
    CutAtPipes line (Text.split '|' t) where
  ne_nil := Text.split_ne_nil '|' t
  no_pipe := fun _ htext hpipe => (Text.of_mem_split htext hpipe).1 rfl
  spelled := by
    rw [barLine, Text.joinWith_split]
    exact h

/-- A line that starts with a pipe and is not that pipe alone has texts between its pipes. -/
theorem exists_cutAtPipes (hline : isTableLine line) (h : HoldsOther line) :
    ∃ texts, CutAtPipes line texts := by
  have hhead : (Text.trim line).head? = some '|' := by
    rw [Text.head?_trim]
    simpa [isTableLine] using hline
  obtain ⟨t, ht⟩ := List.head?_eq_some_iff.mp hhead
  by_cases hclosed : t.getLast? = some '|'
  · refine ⟨_, .of_split (t := t.dropLast) (.inl ?_)⟩
    rw [ht, List.cons_append, List.dropLast_append_getLast? '|' hclosed]
  · refine ⟨_, .of_split (.inr ⟨ht, ?_⟩)⟩
    have hne : t ≠ [] := by
      rintro rfl
      obtain ⟨c, hc, hother, hwhite⟩ := h
      have hmem := Text.mem_trim_of_not_isWhite hc hwhite
      rw [ht, List.mem_singleton] at hmem
      subst hmem
      exact hother (by decide)
    rwa [ht, List.getLast?_cons_of_ne_nil hne]

/-- What is in a line besides pipes and white space is in one of the cells. -/
theorem CutAtPipes.exists_mem_cell (h : CutAtPipes line texts) {c : Char} (hc : c ∈ line)
    (hpipe : c ≠ '|') (hwhite : ¬ Text.isWhite c) : ∃ cell ∈ splitCells line, c ∈ cell := by
  have hmem := Text.mem_trim_of_not_isWhite hc hwhite
  have hjoined : c ∈ Text.joinWith ['|'] texts := by
    rcases h.spelled with hline | ⟨hline, -⟩
    · simpa [hline, barLine, hpipe] using hmem
    · simpa [hline, hpipe] using hmem
  obtain ⟨text, htext, hmem⟩ := (Text.mem_joinWith hjoined).resolve_left hpipe
  rw [h.splitCells_eq]
  exact ⟨_, List.mem_map_of_mem htext, Text.mem_trim_of_not_isWhite hmem hwhite⟩

theorem isRule_iff (hline : isTableLine line) (h : HoldsOther line) :
    isRule line ↔ ∃ rest, Text.trim line = '|' :: '-' :: rest := by
  obtain ⟨texts, hcut⟩ := exists_cutAtPipes hline h
  have hcells : (splitCells line).all isRuleCell = false := by
    obtain ⟨c, hc, hother, hwhite⟩ := h
    simp only [ruleMarks, List.mem_cons, not_or] at hother
    obtain ⟨cell, hcell, hmem⟩ := hcut.exists_mem_cell hc hother.1 hwhite
    rw [List.all_eq_false]
    refine ⟨cell, hcell, ?_⟩
    rw [isRuleCell, Bool.and_eq_true, List.all_eq_true]
    rintro ⟨-, hall⟩
    have hmark := hall c hmem
    simp [hother] at hmark
  rw [isRule, hcells, Bool.or_false, Option.isSome_iff_exists]
  simp only [Text.after?_eq_some_iff]
  rfl

end

/-! ## Reading a document -/

/-- The tables of a document are its runs of table lines, with a header or data row for each line
that is no rule. A line with anything but the marks of a rule is one just when it starts with a pipe
and a dash, and otherwise its row is that of the trimmed texts between its pipes. -/
theorem read_rows (document : Text) :
    let runs := tableRuns (Text.lines document)
    runs.flatten = (Text.lines document).filter isTableLine ∧
      (read document).entries.map (·.2.lines) = runs.map rowsOf ∧
      ∀ line, isTableLine line → HoldsOther line →
        (isRule line ↔ ∃ rest, Text.trim line = '|' :: '-' :: rest) ∧
        (∃ texts, CutAtPipes line texts) ∧
        ∀ texts, CutAtPipes line texts → splitCells line = texts.map Text.trim :=
  ⟨flatten_tableRuns _, lines_readTables none _, fun _ hline hother =>
    ⟨isRule_iff hline hother, exists_cutAtPipes hline hother, fun _ h => h.splitCells_eq⟩⟩

/-- A line with a cell of a rule, one with dashes in it, and no pipe at the end. -/
theorem read_rows_dashes :
    let document := "|k|v|\n|---+---|\n |:-|x--1 \n".toList
    let line : Text := " |:-|x--1 ".toList
    let cells : List Text := [":-".toList, "x--1".toList]
    (isTableLine line ∧ HoldsOther line) ∧
      tableRuns (Text.lines document) = [["|k|v|".toList, "|---+---|".toList, line]] ∧
      isRule line = false ∧ splitCells line = cells ∧
      (read document).entries = [(none, ⟨some [['k'], ['v']], [.cells cells]⟩)] := by
  intro document line cells
  have hother : HoldsOther line := ⟨'x', by decide, by decide, by decide⟩
  have hcut : CutAtPipes line cells :=
    ⟨by decide, by decide, .inr ⟨by decide +kernel, by decide +kernel⟩⟩
  obtain ⟨-, -, hlines⟩ := read_rows document
  obtain ⟨hrule, -, hcells⟩ := hlines line (by decide) hother
  refine ⟨⟨by decide, hother⟩, by decide +kernel, ?_, (hcells cells hcut).trans (by decide),
    by decide +kernel⟩
  rw [← Bool.not_eq_true, hrule]
  rintro ⟨rest, hrest⟩
  have htrim : Text.trim line = "|:-|x--1".toList := by decide +kernel
  rw [htrim] at hrest
  cases hrest

/-- A row with a negative number right behind the first pipe is taken for a rule, and is lost. -/
theorem read_rows_negative : ¬ ∀ document : Text, ∀ line ∈ Text.lines document,
    isTableLine line → HoldsOther line → ∃ entry ∈ (read document).entries,
      splitCells line ∈ entry.2.lines := by
  intro h
  have hentries : (read "|1|2|\n|-5|3|\n|4|5|".toList).entries =
      [(none, ⟨some [['1'], ['2']], [.cells [['4'], ['5']]]⟩)] := by
    decide +kernel
  have hother : HoldsOther "|-5|3|".toList := ⟨'5', by decide, by decide, by decide⟩
  obtain ⟨entry, hentry, hmem⟩ := h "|1|2|\n|-5|3|\n|4|5|".toList "|-5|3|".toList
    (by decide +kernel) (by decide) hother
  rw [hentries, List.mem_singleton] at hentry
  subst hentry
  revert hmem
  decide

end Rollup.Pipe
