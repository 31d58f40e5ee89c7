import Rollup.Proofs.Column.Segments
import Rollup.Proofs.Summary.Columns

/-! # Reading the columns of a summary

The specs of a request are split and read one after the other, and what fails does so before a row
is looked at. So two requests whose specs can be read alike fail both, or give summaries of columns
that are alike.
-/

namespace Rollup

/-! ## Specs and their columns -/

namespace ColumnSpec

/-- Whether the column of a spec is shown. -/
def isShown (text : Text) : Bool := (read text).toOption.any fun s => !s.invisible

/-- The strength that a spec gives to its sort segment, if it has one. -/
def strength? (text : Text) : Option (Option ℕ) :=
  (read text).toOption.bind fun s => s.sort.map SortSegment.strength

end ColumnSpec

/-- Reads a spec and finds the columns of its formula. -/
def Columns.read (c : Columns) (text : Text) : Except Failure OutputColumn :=
  ColumnSpec.read text >>= c.output

theorem Columns.spec_of_output {c : Columns} {spec : ColumnSpec} {column : OutputColumn}
    (h : c.output spec = .ok column) : column.spec = spec := by
  unfold Columns.output at h
  split at h
  · cases h
    rfl
  · obtain ⟨e, -, rfl⟩ := exists_of_map_eq_ok h
    rfl

/-- The spec of a column is what its text says. -/
theorem Columns.read_spec {c : Columns} {text : Text} {column : OutputColumn}
    (h : c.read text = .ok column) : ColumnSpec.read text = .ok column.spec := by
  obtain ⟨spec, hspec, houtput⟩ := exists_of_bind_eq_ok h
  rw [hspec, Columns.spec_of_output houtput]

section

variable {c : Columns} {texts : List Text} {cs : List OutputColumn}

theorem Columns.specs_of_mapM_read (h : texts.mapM c.read = .ok cs) :
    cs.map (·.spec.text) = texts ∧
      ∀ column ∈ cs, ColumnSpec.read column.spec.text = .ok column.spec := by
  rw [mapM_eq_ok_iff] at h
  induction h with
  | nil => simp
  | @cons text column _ _ hcolumn _ ih =>
    have hspec := Columns.read_spec hcolumn
    have htext := ColumnSpec.text_of_read hspec
    refine ⟨by rw [List.map_cons, htext, ih.1], List.forall_mem_cons.mpr ⟨?_, ih.2⟩⟩
    rw [htext, hspec]

theorem Columns.filter_isShown (h : texts.mapM c.read = .ok cs) :
    texts.filter ColumnSpec.isShown = (Summary.shown cs).map (·.spec.text) := by
  obtain ⟨rfl, hspecs⟩ := Columns.specs_of_mapM_read h
  rw [List.filter_map, Summary.shown]
  refine congrArg _ (List.filter_congr fun column hcolumn => ?_)
  rw [Function.comp, ColumnSpec.isShown, hspecs column hcolumn]
  rfl

theorem Columns.filterMap_strength? (h : texts.mapM c.read = .ok cs) :
    texts.filterMap ColumnSpec.strength? =
      cs.filterMap fun column => column.spec.sort.map SortSegment.strength := by
  obtain ⟨rfl, hspecs⟩ := Columns.specs_of_mapM_read h
  rw [List.filterMap_map]
  refine List.filterMap_congr fun column hcolumn => ?_
  rw [Function.comp, ColumnSpec.strength?, hspecs column hcolumn]
  rfl

end

/-! ## From specs to a summary -/

namespace Table

variable {E : Filter.Engine} {t : Table}

theorem outputColumns_eq_ok_iff {columns : Text} {cs : List OutputColumn} :
    t.outputColumns columns = .ok cs ↔ ∃ texts, ColumnSpec.splitList columns = .ok texts ∧
      texts ≠ [] ∧ texts.mapM t.columns.read = .ok cs := by
  have hread : ∀ texts : List Text, texts.mapM t.columns.read = .ok cs ↔
      (texts.mapM ColumnSpec.read >>= List.mapM t.columns.output) = .ok cs :=
    fun _ => mapM_bind_mapM_eq_ok_iff.symm
  simp only [hread]
  unfold outputColumns ColumnSpec.readList
  cases hsplit : ColumnSpec.splitList columns with
  | error failure => simp [bind, Except.bind]
  | ok texts =>
    cases texts with
    | nil => simp [bind, Except.bind, pure, Except.pure]
    | cons text texts =>
      simp only [Except.ok.injEq, exists_eq_left', ne_eq, reduceCtorEq, not_false_eq_true, true_and]
      cases hspecs : (text :: texts).mapM ColumnSpec.read with
      | error failure => simp [bind, Except.bind, hspecs]
      | ok specs =>
        cases mapM_eq_ok_iff.mp hspecs with
        | cons _ _ => simp [bind, Except.bind, hspecs]

/-- Columns agree when the specs do and can be read alike. -/
theorem agree_outputColumns {columns columns' : Text}
    {specs : List Text → List Text → Prop} {related : List OutputColumn → List OutputColumn → Prop}
    (hsplit : Agree specs (ColumnSpec.splitList columns) (ColumnSpec.splitList columns'))
    (hnil : ∀ texts texts', specs texts texts' → (texts = [] ↔ texts' = []))
    (hread : ∀ texts texts', specs texts texts' →
      Agree related (texts.mapM t.columns.read) (texts'.mapM t.columns.read)) :
    Agree related (t.outputColumns columns) (t.outputColumns columns') := by
  refine agree_of_eq_ok (fun cs hcs => ?_) fun cs' hcs' => ?_
  · obtain ⟨texts, htexts, hne, hcs⟩ := outputColumns_eq_ok_iff.mp hcs
    obtain ⟨texts', htexts', hspecs⟩ := hsplit.exists_right htexts
    obtain ⟨cs', hcs', hrelated⟩ := (hread texts texts' hspecs).exists_right hcs
    have hne' : texts' ≠ [] := fun h => hne ((hnil _ _ hspecs).mpr h)
    exact ⟨cs', outputColumns_eq_ok_iff.mpr ⟨texts', htexts', hne', hcs'⟩, hrelated⟩
  · obtain ⟨texts', htexts', hne', hcs'⟩ := outputColumns_eq_ok_iff.mp hcs'
    obtain ⟨texts, htexts, hspecs⟩ := hsplit.exists_left htexts'
    obtain ⟨cs, hcs, -⟩ := (hread texts texts' hspecs).exists_left hcs'
    have hne : texts ≠ [] := fun h => hne' ((hnil _ _ hspecs).mp h)
    exact ⟨cs, outputColumns_eq_ok_iff.mpr ⟨texts, htexts, hne, hcs⟩⟩

theorem exists_summarize {r : SummaryRequest} {texts : List Text} {filter : Option RowFilter}
    (hsplit : ColumnSpec.splitList r.columns = .ok texts) (hne : texts ≠ [])
    (hread : ∀ text ∈ texts, ∃ column, t.columns.read text = .ok column)
    (hfilter : t.columns.optionalFilter E r.rowFilter = .ok filter) :
    ∃ out, t.summarize E r = .ok out := by
  obtain ⟨cs, hcs⟩ : ∃ cs, texts.mapM t.columns.read = .ok cs := by
    simp only [mapM_eq_ok_iff]
    clear hsplit hne
    induction texts with
    | nil => exact ⟨[], .nil⟩
    | cons text texts ih =>
      obtain ⟨⟨column, hcolumn⟩, hread⟩ := List.forall_mem_cons.mp hread
      obtain ⟨cs, hcs⟩ := ih hread
      exact ⟨column :: cs, .cons hcolumn hcs⟩
  rw [summarize, outputColumns_eq_ok_iff.mpr ⟨texts, hsplit, hne, hcs⟩, hfilter]
  exact ⟨_, rfl⟩

/-- Summaries agree as far as their columns do. -/
theorem agree_summarize {r : SummaryRequest} {columns' : Text}
    {related : List OutputColumn → List OutputColumn → Prop} {outcome : Table → Table → Prop}
    (hcolumns : Agree related (t.outputColumns r.columns) (t.outputColumns columns'))
    (htable : ∀ cs cs' filter, related cs cs' →
      outcome (Summary.table t cs filter (r.separatorDepth.getD 0) r.format)
        (Summary.table t cs' filter (r.separatorDepth.getD 0) r.format)) :
    Agree outcome (t.summarize E r) (t.summarize E { r with columns := columns' }) := by
  refine hcolumns.bind fun cs cs' hcs => ?_
  refine (agree_self (t.columns.optionalFilter E r.rowFilter)).bind ?_
  rintro filter _ rfl
  exact .ok (htable cs cs' filter hcs)

end Table

/-! ## The simplest formulas -/

theorem Expr.read_first_column : Expr.read ['$', '1'] = .ok (.name ['$', '1'] false) := by
  have hscan : Token.scan '$' ['1'] = .ok (.dollar 1, 1) := by with_unfolding_all rfl
  have htokens : Token.read ['$', '1'] = .ok [⟨.dollar 1, 0⟩] := by
    have hwhite : Text.isWhite '$' = false := by decide
    simp [Token.read, Token.readFrom, hscan, hwhite, Except.map]
  rw [Expr.read, if_neg (by decide), htokens]
  simp only [bind, Except.bind, pure, Except.pure, Formula.expr, Formula.term, Formula.unary,
    Formula.power, Formula.primary, Formula.productTail, Formula.sumTail]
  rfl

theorem Columns.read_first_column {c : Columns} (hwidth : 0 < c.width) {text : Text}
    {spec : ColumnSpec} (hspec : ColumnSpec.read text = .ok spec)
    (hformula : spec.formula = ['$', '1']) (hliteral : spec.format.literal = false) :
    c.read text = .ok ⟨spec, .key 1⟩ := by
  have hnumbered : c.numbered ['1'] = .ok 1 := by
    have hdigits : Text.signedToNatBelow? Text.countBound ['1'] = some 1 := by decide
    rw [Columns.numbered, hdigits]
    exact if_neg (by omega)
  have hfind : c.find ['$', '1'] false = .ok 1 := by
    rw [Columns.find, Columns.position, if_neg (by decide), if_neg (by decide)]
    exact congrArg _ hnumbered
  rw [Columns.read, hspec]
  change c.output spec = _
  rw [Columns.output, hliteral, Columns.formula, hformula, Expr.read_first_column]
  dsimp only
  rw [Expr.resolve, hfind]
  rfl

theorem Columns.read_literal {c : Columns} {text : Text} {spec : ColumnSpec}
    (hspec : ColumnSpec.read text = .ok spec) (hliteral : spec.format.literal = true) :
    c.read text = .ok ⟨spec, .literal⟩ := by
  rw [Columns.read, hspec]
  exact if_pos hliteral

theorem Expr.read_count : Expr.read "count()".toList = .ok (.call (.aggregate .count) []) := by
  have hname : Token.scan 'c' ['o', 'u', 'n', 't', '(', ')'] = .ok (.name "count".toList, 4) := by
    with_unfolding_all rfl
  have hopen : Token.scan '(' [')'] = .ok (.lparen, 0) := rfl
  have hclose : Token.scan ')' [] = .ok (.rparen, 0) := rfl
  have htokens : Token.read "count()".toList =
      .ok [⟨.name "count".toList, 0⟩, ⟨.lparen, 5⟩, ⟨.rparen, 6⟩] := by
    have hletter : Text.isWhite 'c' = false := by decide
    have hleft : Text.isWhite '(' = false := by decide
    have hright : Text.isWhite ')' = false := by decide
    simp [Token.read, Token.readFrom, hname, hopen, hclose, hletter, hleft, hright, Except.map]
    decide
  have hlookup : Function.lookup? "count".toList = some (.aggregate .count) := by decide
  rw [Expr.read, if_neg (by decide), htokens]
  simp only [bind, Except.bind, pure, Except.pure, Formula.expr, Formula.term, Formula.unary,
    Formula.power, Formula.primary, Formula.arguments, hlookup]
  rw [if_pos (by decide)]
  simp only [Formula.productTail, Formula.sumTail]

theorem Columns.read_count {c : Columns} {text : Text} {spec : ColumnSpec}
    (hspec : ColumnSpec.read text = .ok spec) (hformula : spec.formula = "count()".toList)
    (hliteral : spec.format.literal = false) :
    c.read text = .ok ⟨spec, .formula (.call (.aggregate .count) [])⟩ := by
  rw [Columns.read, hspec]
  change c.output spec = _
  rw [Columns.output, hliteral, Columns.formula, hformula, Expr.read_count]
  rfl

end Rollup
