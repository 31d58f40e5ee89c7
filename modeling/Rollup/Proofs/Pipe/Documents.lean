import Rollup.Proofs.Pipe.Rows

/-! # Documents in parts

A blank line parts a document: its tables are those above the line, and then those below it. Every
run of table lines is one table. Its name is the one that is given above it, if only other keywords
stand between the two.
-/

namespace Rollup.Pipe

/-! ## White space at the end of a line -/

section

variable {line v : Text} (hv : Text.isBlank v)

theorem isTableLine_iff : isTableLine line ↔ ['|'] <+: Text.trimStart line := by
  cases h : Text.trimStart line <;> simp [isTableLine, h, eq_comm]

include hv

theorem isTableLine_append_blank : isTableLine (line ++ v) = isTableLine line := by
  rw [Bool.eq_iff_iff, isTableLine_iff, isTableLine_iff,
    Text.prefix_trimStart_append_blank (List.forall_mem_singleton.mpr (by decide)) hv]

theorem readRow_append_blank : readRow (line ++ v) = readRow line := by
  unfold readRow isRule splitCells
  rw [Text.trim_append_right hv]

theorem nextName_append_blank (name : Option Text) :
    nextName name (line ++ v) = nextName name line := by
  have hmarks : ∀ c ∈ ['#', '+'], ¬ Text.isWhite c :=
    List.forall_mem_cons.mpr ⟨by decide, List.forall_mem_singleton.mpr (by decide)⟩
  have hkeyword : (Text.after? ['#', '+'] (Text.trimStart (line ++ v))).isSome =
      (Text.after? ['#', '+'] (Text.trimStart line)).isSome := by
    rw [Bool.eq_iff_iff, Text.isSome_after?_iff, Text.isSome_after?_iff,
      Text.prefix_trimStart_append_blank hmarks hv]
  unfold nextName nameIn?
  rw [Text.trim_append_right hv, hkeyword]

end

/-- A document is read the same without the white space at the ends of its lines. -/
theorem readTables_map_trimEnd (name : Option Text) (ls : List Text) :
    readTables name (ls.map Text.trimEnd) = readTables name ls := by
  have hend : ∀ line, ∃ v, Text.isBlank v ∧ Text.trimEnd line ++ v = line := fun line =>
    ⟨line.rtakeWhile Text.isWhite, Text.isBlank_iff.mpr fun c => List.mem_rtakeWhile_imp,
      List.rdropWhile_append_rtakeWhile⟩
  have hline : isTableLine ∘ Text.trimEnd = isTableLine := by
    funext line
    obtain ⟨v, hv, heq⟩ := hend line
    rw [Function.comp_apply, ← isTableLine_append_blank hv, heq]
  have hrow : readRow ∘ Text.trimEnd = readRow := by
    funext line
    obtain ⟨v, hv, heq⟩ := hend line
    rw [Function.comp_apply, ← readRow_append_blank hv, heq]
  have hname : ∀ name line, nextName name (Text.trimEnd line) = nextName name line := by
    intro name line
    obtain ⟨v, hv, heq⟩ := hend line
    rw [← nextName_append_blank hv, heq]
  fun_induction readTables name ls with
  | case1 => simp [readTables]
  | case2 name line ls h more ih =>
    have hhead : isTableLine (Text.trimEnd line) := (congrFun hline line).trans h
    have hmore : (ls.map Text.trimEnd).takeWhile isTableLine = more.map Text.trimEnd := by
      rw [List.takeWhile_map, hline]
    rw [List.map_cons, readTables, if_pos hhead]
    simp only [hmore, List.length_map, ← List.map_drop, ih, readTable_eq, ← List.map_cons,
      List.map_map, hrow]
  | case3 name line ls h ih =>
    have hhead : ¬ isTableLine (Text.trimEnd line) := by rwa [← congrFun hline line] at h
    rw [List.map_cons, readTables, if_neg hhead, hname, ih]

/-! ## Names -/

/-- Whether a line has a keyword, so that it leaves the name above it to the next table. -/
def IsKeyword (line : Text) : Prop := ['#', '+'] <+: Text.trimStart line

/-- What the next table is named by these lines: below the line that gives the name come only lines
with other keywords. -/
def NameAbove (above : List Text) (name : Text) : Prop :=
  ∃ before line after, above = before ++ line :: after ∧ nameIn? line = some name ∧
    ∀ later ∈ after, IsKeyword later ∧ nameIn? later = none

theorem IsKeyword.not_isTableLine {line : Text} (h : IsKeyword line) : ¬ isTableLine line := by
  obtain ⟨t, ht⟩ := h
  simp [isTableLine, ← ht]

theorem IsKeyword.not_isBlank {line : Text} (h : IsKeyword line) : ¬ Text.isBlank line := by
  obtain ⟨t, ht⟩ := h
  rw [← Text.trimStart_eq_nil_iff, ← ht]
  simp

theorem nextName_eq_some_iff {name : Option Text} {line given : Text} :
    nextName name line = some given ↔
      nameIn? line = some given ∨ nameIn? line = none ∧ IsKeyword line ∧ name = some given := by
  unfold nextName IsKeyword
  rw [← Text.isSome_after?_iff]
  split <;> simp_all

/-- A table line gives no name, and none is left below it. -/
theorem nextName_of_isTableLine {line : Text} (h : isTableLine line) (name : Option Text) :
    nextName name line = none := by
  obtain ⟨t, ht⟩ := List.head?_eq_some_iff.mp (by simpa [isTableLine] using h)
  have htrim : (Text.trim line).head? = some '|' := by rw [Text.head?_trim, ht]; rfl
  obtain ⟨u, hu⟩ := List.head?_eq_some_iff.mp htrim
  have hname : nameIn? line = none := by
    unfold nameIn?
    rw [hu]
    apply if_neg
    rintro ⟨hkeyword, -⟩
    exact absurd (List.cons.inj hkeyword).1 (by decide)
  unfold nextName
  rw [hname, ht]
  rfl

theorem foldl_nextName_run {run : List Text} (hne : run ≠ []) (h : ∀ line ∈ run, isTableLine line)
    (name : Option Text) : run.foldl nextName name = none := by
  obtain ⟨before, line, rfl⟩ := (List.eq_nil_or_concat' run).resolve_left hne
  rw [List.foldl_append]
  exact nextName_of_isTableLine (h line (by simp)) _

theorem foldl_nextName_eq_some_iff {above : List Text} {name : Text} :
    above.foldl nextName none = some name ↔ NameAbove above name := by
  induction above using List.reverseRecOn with
  | nil => simp [NameAbove]
  | append_singleton above line ih =>
    rw [List.foldl_append, List.foldl_cons, List.foldl_nil, nextName_eq_some_iff, ih]
    constructor
    · rintro (h | ⟨hnone, hkeyword, before, given, after, rfl, hgiven, hafter⟩)
      · exact ⟨above, line, [], rfl, h, by simp⟩
      · refine ⟨before, given, after ++ [line], by simp, hgiven, ?_⟩
        simpa [or_imp, forall_and, hkeyword, hnone] using hafter
    · rintro ⟨before, given, after, heq, hgiven, hafter⟩
      rcases List.eq_nil_or_concat' after with rfl | ⟨after, last, rfl⟩
      · obtain ⟨rfl, hline⟩ := List.append_inj' heq rfl
        exact .inl (List.singleton_inj.mp hline ▸ hgiven)
      · rw [← List.cons_append, ← List.append_assoc] at heq
        obtain ⟨rfl, hline⟩ := List.append_inj' heq rfl
        obtain rfl := List.singleton_inj.mp hline
        obtain ⟨hkeyword, hnone⟩ := hafter line (by simp)
        exact .inr ⟨hnone, hkeyword, before, given, after, rfl, hgiven,
          fun later hlater => hafter later (List.mem_append_left _ hlater)⟩

/-! ## Tables one after the other -/

/-- A line outside tables parts the tables above it from those below it. -/
theorem readTables_append_cons {line : Text} (h : ¬ isTableLine line) (name : Option Text)
    (above below : List Text) : readTables name (above ++ line :: below) =
      readTables name above ++
        readTables (nextName (above.foldl nextName name) line) below := by
  fun_induction readTables name above with
  | case1 => simp [readTables, h]
  | case2 name first ls hfirst more ih =>
    have hmore : (ls ++ line :: below).takeWhile isTableLine = more := by
      rw [List.takeWhile_append, List.takeWhile_cons_of_neg h, List.append_nil]
      split
      case isTrue hall => exact ((List.takeWhile_prefix _).eq_of_length hall).symm
      case isFalse => rfl
    have hname : (first :: ls).foldl nextName name = (ls.drop more.length).foldl nextName none := by
      have hrun : ∀ line ∈ first :: more, isTableLine line :=
        List.forall_mem_cons.mpr ⟨hfirst, fun line => List.mem_takeWhile_imp⟩
      rw [← foldl_nextName_run (List.cons_ne_nil first more) hrun name, ← List.foldl_append,
        List.cons_append, Text.drop_length_takeWhile, List.takeWhile_append_dropWhile]
    have hlen : more.length ≤ ls.length := (List.takeWhile_prefix _).length_le
    rw [List.cons_append, readTables, if_pos hfirst]
    dsimp only
    rw [hmore, List.drop_append_of_le_length hlen, ih, hname, List.cons_append]
  | case3 name first ls hfirst ih => rw [List.cons_append, readTables, if_neg hfirst, ih]; rfl

theorem readTables_run_append {run below : List Text} (hne : run ≠ [])
    (hrun : ∀ line ∈ run, isTableLine line) (hbelow : ∀ line ∈ below.head?, ¬ isTableLine line)
    (name : Option Text) :
    readTables name (run ++ below) = (name, readTable run) :: readTables none below := by
  cases below with
  | nil => rw [List.append_nil, readTables_eq hne hrun, readTables]
  | cons line below =>
    have hline : ¬ isTableLine line := hbelow line rfl
    rw [readTables_append_cons hline, readTables_eq hne hrun, foldl_nextName_run hne hrun,
      readTables, if_neg hline]
    rfl

/-- A run is one table, between those above and those below it. -/
theorem IsRun.readTables_eq {ls above run below : List Text} (h : IsRun ls above run below)
    (name : Option Text) : readTables name ls = readTables name above ++
      (above.foldl nextName name, readTable run) :: readTables none below := by
  rw [h.eq, List.append_assoc]
  rcases List.eq_nil_or_concat' above with rfl | ⟨before, line, rfl⟩
  · rw [readTables, List.nil_append, readTables_run_append h.ne_nil h.inside h.stop]
    rfl
  · have hline : ¬ isTableLine line := h.start line (by simp)
    rw [List.append_assoc, List.singleton_append, readTables_append_cons hline,
      readTables_append_cons hline, readTables_run_append h.ne_nil h.inside h.stop,
      List.foldl_append, readTables, List.append_nil]
    rfl

theorem length_readTables (name : Option Text) (ls : List Text) :
    (readTables name ls).length = (tableRuns ls).length := by
  simpa using congrArg List.length (lines_readTables name ls)

/-- The runs below a run are runs of the whole. -/
theorem IsRun.below {ls run rest above next below : List Text} (h : IsRun ls [] run rest)
    (hnext : IsRun rest above next below) : IsRun ls (run ++ above) next below where
  eq := by simp [h.eq, hnext.eq]
  ne_nil := hnext.ne_nil
  inside := hnext.inside
  start := by
    rcases List.eq_nil_or_concat' above with rfl | ⟨before, line, rfl⟩
    · -- the next run cannot start right below this one, which would then go on
      obtain ⟨line, lines, hcons⟩ := List.exists_cons_of_ne_nil hnext.ne_nil
      have hstop := h.stop line (by simp [hnext.eq, hcons])
      exact absurd (hnext.inside line (by simp [hcons])) hstop
    · simpa using hnext.start
  stop := hnext.stop

theorem IsRun.cons {line : Text} (hline : ¬ isTableLine line) {ls above run below : List Text}
    (h : IsRun ls above run below) : IsRun (line :: ls) (line :: above) run below where
  eq := by simp [h.eq]
  ne_nil := h.ne_nil
  inside := h.inside
  start := by
    cases above with
    | nil => simpa using hline
    | cons next above => simpa using h.start
  stop := h.stop

theorem IsRun.above {ls run rest above next below : List Text} (h : IsRun ls [] run rest)
    (hnext : IsRun rest above next below) : IsRun (run ++ above) [] run above where
  eq := rfl
  ne_nil := h.ne_nil
  inside := h.inside
  start := by simp
  stop := by
    cases above with
    | nil => simp
    | cons line above => simpa [hnext.eq] using h.stop

/-- Every table is that of a run, in its place among the runs. -/
theorem exists_isRun {name : Option Text} {ls : List Text} {i : ℕ} {entry : Option Text × Table}
    (h : (readTables name ls)[i]? = some entry) : ∃ above run below, IsRun ls above run below ∧
      (tableRuns above).length = i ∧ entry = (above.foldl nextName name, readTable run) := by
  fun_induction readTables name ls generalizing i with
  | case1 => simp at h
  | case2 name line ls hline more =>
    rename_i ih
    have hfirst := isRun_takeWhile hline ls
    cases i with
    | zero =>
      obtain rfl := Option.some_inj.mp h
      exact ⟨[], _, _, hfirst, rfl, rfl⟩
    | succ i =>
      obtain ⟨above, run, below, hnext, rfl, rfl⟩ := ih h
      refine ⟨_, run, below, hfirst.below hnext, ?_, ?_⟩
      · rw [(hfirst.above hnext).tableRuns_eq]
        rfl
      · rw [List.foldl_append, foldl_nextName_run hfirst.ne_nil hfirst.inside]
  | case3 name line ls hline ih =>
    obtain ⟨above, run, below, hrun, rfl, rfl⟩ := ih h
    exact ⟨line :: above, run, below, hrun.cons hline, by rw [tableRuns_cons_of_not hline], rfl⟩

theorem getElem?_readTables_iff {ls : List Text} {i : ℕ} {name : Option Text} {t : Table} :
    (readTables none ls)[i]? = some (name, t) ↔ ∃ above run below, IsRun ls above run below ∧
      (tableRuns above).length = i ∧ t = readTable run ∧
      ∀ given, name = some given ↔ NameAbove above given := by
  simp only [← foldl_nextName_eq_some_iff]
  constructor
  · intro h
    obtain ⟨above, run, below, hrun, hi, heq⟩ := exists_isRun h
    cases heq
    exact ⟨above, run, below, hrun, hi, rfl, fun _ => Iff.rfl⟩
  · rintro ⟨above, run, below, hrun, rfl, rfl, hname⟩
    have hname : above.foldl nextName none = name :=
      Option.ext fun given => (hname given).symm
    rw [hrun.readTables_eq none, ← length_readTables none, hname]
    simp

/-! ## Documents -/

theorem nextName_of_isBlank {line : Text} (h : Text.isBlank line) (name : Option Text) :
    nextName name line = none := by
  have hname : nameIn? line = none := by
    unfold nameIn?
    rw [Text.trim_of_isBlank h]
    rfl
  unfold nextName
  rw [hname, Text.trimStart_eq_nil_iff.mpr h]
  rfl

theorem readTables_append_blank {line : Text} (h : Text.isBlank line) (name : Option Text)
    (above below : List Text) : readTables name (above ++ line :: below) =
      readTables name above ++ readTables none below := by
  have hline : ¬ isTableLine line := by
    simp [isTableLine, Text.trimStart_eq_nil_iff.mpr h]
  rw [readTables_append_cons hline, nextName_of_isBlank h]

/-- A carriage return at the end of the first document belongs to the line break that follows. -/
theorem readTables_concat (name : Option Text) (ls : List Text) {line u : Text}
    (h : u = line ∨ u = line ++ ['\r']) :
    readTables name (ls ++ [line]) = readTables name (ls ++ [u]) := by
  have hend : Text.trimEnd u = Text.trimEnd line := by
    rcases h with rfl | rfl
    · rfl
    · exact Text.trimEnd_append (by decide)
  rw [← readTables_map_trimEnd, ← readTables_map_trimEnd name (ls ++ [u])]
  simp [hend]

theorem readTables_lines_append (a b : Text) :
    readTables none (Text.lines (a ++ "\n\n".toList ++ b)) =
      readTables none (Text.lines a) ++ readTables none (Text.lines b) := by
  obtain ⟨s, u, rfl, hs, hu⟩ := Text.exists_break a
  obtain ⟨line, hlines, hline⟩ := Text.exists_lines_append hu ('\n' :: b)
  have hwhole : Text.lines (s ++ u ++ "\n\n".toList ++ b) =
      Text.lines s ++ [line] ++ [] :: Text.lines b := by
    have hassoc : s ++ u ++ "\n\n".toList ++ b = s ++ (u ++ '\n' :: '\n' :: b) := by simp
    rw [hassoc, Text.lines_append_of_break hs, hlines, Text.lines]
    simp
  rw [hwhole, readTables_append_blank rfl, readTables_concat none _ hline,
    Text.lines_append_of_break hs]
  by_cases hne : u = []
  · have hempty : readTables none (Text.lines s ++ [[]]) = readTables none (Text.lines s) := by
      rw [readTables_append_blank rfl, readTables, List.append_nil]
    rw [hne, hempty, Text.lines, List.append_nil]
  · rw [Text.lines_of_no_break hne hu]

/-- The tables of two documents with a blank line between them are those of the one and then those
of the other. In every document each run of table lines is one table, in order. Its name is the one
that is given above it, with only other keywords in between, so no blank line and no table. -/
theorem entries_read_append (a b : Text) :
    (read (a ++ "\n\n".toList ++ b)).entries = (read a).entries ++ (read b).entries ∧
    ∀ document : Text,
      (read document).entries.map Prod.snd = (tableRuns (Text.lines document)).map readTable ∧
      (∀ i name t, (read document).entries[i]? = some (name, t) ↔
        ∃ above run below, IsRun (Text.lines document) above run below ∧
          (tableRuns above).length = i ∧ t = readTable run ∧
          ∀ given, name = some given ↔ NameAbove above given) ∧
      ∀ line, IsKeyword line → ¬ Text.isBlank line ∧ ¬ isTableLine line :=
  ⟨readTables_lines_append a b, fun _ => ⟨map_snd_readTables none _,
    fun _ _ _ => getElem?_readTables_iff, fun _ h => ⟨h.not_isBlank, h.not_isTableLine⟩⟩⟩

/-- The first document ends with a carriage return, the second one with a name. -/
theorem entries_read_append_keyword :
    let a := "#+NAME: x\n #+CAPTION: y\n|1|\r".toList
    let b := "|2|\n#+name: z".toList
    IsKeyword " #+CAPTION: y".toList ∧ ¬ Text.isBlank " #+CAPTION: y".toList ∧
      (read (a ++ "\n\n".toList ++ b)).entries =
        [(some ['x'], ⟨none, [.cells [['1']]]⟩), (none, ⟨none, [.cells [['2']]]⟩)] := by
  intro a b
  obtain ⟨happend, hdocument⟩ := entries_read_append a b
  obtain ⟨-, -, hkeyword⟩ := hdocument a
  have hcaption : IsKeyword " #+CAPTION: y".toList := ⟨"CAPTION: y".toList, by decide⟩
  have ha : (read a).entries = [(some ['x'], ⟨none, [.cells [['1']]]⟩)] := by decide +kernel
  have hb : (read b).entries = [(none, ⟨none, [.cells [['2']]]⟩)] := by decide +kernel
  refine ⟨hcaption, (hkeyword _ hcaption).1, ?_⟩
  rw [happend, ha, hb]
  rfl

end Rollup.Pipe
