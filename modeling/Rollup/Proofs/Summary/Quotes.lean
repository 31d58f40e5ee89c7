import Rollup.Proofs.Agreement
import Rollup.Proofs.Formula.Faults
import Rollup.Proofs.Formula.Quotes
import Rollup.Script.Evaluate
import Rollup.Summary.Basic

/-! # Quotes in the columns of a summary

A list of specs is cut outside of quotes only, and so is a spec. What is cut off closes its own
quotes, so that a list whose quotes are closed has no open quote in a spec or in a formula, and no
summary fails for one.
-/

namespace Rollup

/-! ## Specs and segments -/

namespace ColumnSpec

variable {t : Text} {specs segments : List Text}

theorem openQuote_of_mem_splitList (h : splitList t = .ok specs) {spec : Text} (hspec : spec ∈ specs) :
    Text.openQuote spec = none := by
  unfold splitList at h
  dsimp only at h
  split at h
  case isTrue => cases h
  case isFalse hquote =>
    cases h
    -- a cut is made outside of quotes and of parentheses, so the next spec is scanned from the start
    have hcuts : ∀ (n : Nesting) c, n.cuts c → n.quote = none := by
      intro n c hc
      rw [Nesting.cuts, Bool.and_eq_true, decide_eq_true_iff] at hc
      rw [hc.1]
    obtain ⟨first, rest, hpieces⟩ :
        ∃ first rest, Text.splitWhere Nesting.step Nesting.cuts {} t = first :: rest :=
      List.exists_cons_of_ne_nil (Text.splitWhere_ne_nil _ _)
    obtain ⟨hfirst, hrest⟩ := Text.splitWhere_pieces (P := fun n : Nesting => n.quote = none)
      step_of_cuts hcuts (by simpa using hquote) hpieces
    have hall : ∀ piece ∈ first :: rest, (piece.foldl Nesting.step {}).quote = none :=
      List.forall_mem_cons.mpr ⟨hfirst, hrest⟩
    rw [hpieces] at hspec
    have hclosed := hall spec (List.mem_of_mem_filter hspec)
    rwa [quote_foldl_step] at hclosed

theorem exists_splitSegments (h : Text.openQuote t = none) :
    ∃ formula segments, splitSegments t = .ok (formula :: segments) ∧
      Text.openQuote formula = none := by
  let cuts : Option Char → Char → Bool := fun quote c => quote.isNone && c = ';'
  have hstart : ∀ quote c, cuts quote c → Text.quoteAfter quote c = none := by
    intro quote c hc
    obtain ⟨rfl, rfl⟩ : quote = none ∧ c = ';' := by simpa [cuts] using hc
    rfl
  have hcuts : ∀ quote c, cuts quote c → quote = none := by
    intro quote c hc
    simp only [cuts, Bool.and_eq_true, Option.isNone_iff_eq_none] at hc
    exact hc.1
  obtain ⟨formula, segments, hpieces⟩ :
      ∃ formula segments, Text.splitWhere Text.quoteAfter cuts none t = formula :: segments :=
    List.exists_cons_of_ne_nil (Text.splitWhere_ne_nil _ _)
  have hformula := (Text.splitWhere_pieces (P := fun quote => quote = none) hstart hcuts h hpieces).1
  refine ⟨formula, segments, ?_, hformula⟩
  rw [splitSegments, h]
  exact congrArg Except.ok hpieces

theorem formula_of_addSegment {s s' : ColumnSpec} {segment : Text}
    (h : s.addSegment segment = .ok s') : s'.formula = s.formula := by
  unfold addSegment at h
  split at h
  · cases h
    rfl
  · split at h
    · cases h
    · obtain ⟨sort, -, rfl⟩ := exists_of_map_eq_ok h
      rfl
  · split at h
    · cases h
      rfl
    · cases h
  · split at h
    · split at h
      · cases h
      · cases h
        rfl
    · split at h
      · cases h
        rfl
      · cases h

theorem formula_of_addSegments {s s' : ColumnSpec} (h : s.addSegments segments = .ok s') :
    s'.formula = s.formula := by
  induction segments generalizing s with
  | nil =>
    cases h
    rfl
  | cons segment segments ih =>
    rw [addSegments] at h
    split at h
    case h_1 s'' hsegment => rw [ih h, formula_of_addSegment hsegment]
    case h_2 => cases h

end ColumnSpec

/-! ## Failures -/

/-- Whether a failure is that of a quote which is not closed, in a spec or in its formula. -/
def Failure.isOpenQuote : Failure → Bool
  | .spec _ .unmatchedQuote => true
  | .compile _ (.formula fault) => fault.problem = .unterminatedName
  | _ => false

/-- A step that does not fail for an open quote. -/
def ClosesQuotes {α : Type} (x : Except Failure α) : Prop :=
  FailsWith (fun failure => failure.isOpenQuote = false) x

namespace ColumnSpec

theorem splitList_failsWith (t : Text) :
    FailsWith (fun failure => ∃ spec, failure = .spec spec .unmatchedQuote) (splitList t) := by
  unfold splitList
  dsimp only
  split
  · exact failsWith_error ⟨_, rfl⟩
  · exact failsWith_ok _

theorem readSort_failsWith (t : Text) : FailsWith (· ≠ .unmatchedQuote) (readSort t) := by
  unfold readSort
  split
  · exact failsWith_error (by simp)
  · split
    · exact failsWith_error (by simp)
    · split
      · exact failsWith_ok _
      · split
        · exact failsWith_ok _
        · exact failsWith_error (by simp)

theorem addSegment_failsWith (s : ColumnSpec) (segment : Text) :
    FailsWith (· ≠ .unmatchedQuote) (s.addSegment segment) := by
  unfold addSegment
  split
  · exact failsWith_ok _
  · split
    · exact failsWith_error (by simp)
    · exact (readSort_failsWith _).map _
  · split
    · exact failsWith_ok _
    · exact failsWith_error (by simp)
  · split
    · split
      · exact failsWith_error (by simp)
      · exact failsWith_ok _
    · split
      · exact failsWith_ok _
      · exact failsWith_error (by simp)

theorem addSegments_failsWith (s : ColumnSpec) (segments : List Text) :
    FailsWith (· ≠ .unmatchedQuote) (s.addSegments segments) := by
  induction segments generalizing s with
  | nil => exact failsWith_ok s
  | cons segment segments ih =>
    rw [addSegments]
    split
    case h_1 s' _ => exact ih s'
    case h_2 problem h => exact failsWith_error (addSegment_failsWith s _ problem h)

theorem read_closesQuotes {t : Text} (h : Text.openQuote t = none) : ClosesQuotes (read t) := by
  obtain ⟨formula, segments, hsegments, -⟩ := exists_splitSegments h
  rw [read_of_splitSegments hsegments]
  split
  case isTrue => exact failsWith_error rfl
  case isFalse =>
    refine (addSegments_failsWith _ segments).mapError fun problem hproblem => ?_
    cases problem with
    | unmatchedQuote => exact absurd rfl hproblem
    | _ => rfl

theorem openQuote_formula_of_read {t : Text} (h : Text.openQuote t = none) {s : ColumnSpec}
    (hread : read t = .ok s) : Text.openQuote s.formula = none := by
  obtain ⟨formula, segments, hsegments, hformula⟩ := exists_splitSegments h
  rw [read_of_splitSegments hsegments] at hread
  split at hread
  case isTrue => cases hread
  case isFalse =>
    rw [formula_of_addSegments (eq_ok_of_mapError_eq_ok hread)]
    exact Text.openQuote_trim hformula

end ColumnSpec

theorem Columns.output_closesQuotes (c : Columns) {spec : ColumnSpec}
    (h : Text.openQuote spec.formula = none) : ClosesQuotes (c.output spec) := by
  unfold Columns.output
  split
  · exact failsWith_ok _
  · refine FailsWith.map ?_ _
    unfold Columns.formula
    split
    case h_1 fault hread =>
      apply failsWith_error
      simp only [Failure.isOpenQuote, decide_eq_false_iff_not]
      intro hproblem
      obtain ⟨problem, offset⟩ := fault
      cases hproblem
      exact Token.readFrom_ne_unterminated h 0 offset (Expr.token_read_of_isLexical hread rfl)
    case h_2 parsed _ =>
      intro failure hfailure
      obtain ⟨fault, -, rfl⟩ := exists_of_mapError_eq_error hfailure
      unfold Columns.unknown
      split <;> rfl

namespace Table

variable {E : Filter.Engine} {t : Table} {r : SummaryRequest} {specs : List Text}

theorem summarize_closesQuotes (h : ColumnSpec.splitList r.columns = .ok specs) :
    ClosesQuotes (t.summarize E r) := by
  have hclosed : ∀ text ∈ specs, Text.openQuote text = none := fun _ =>
    ColumnSpec.openQuote_of_mem_splitList h
  have hread : ColumnSpec.readList r.columns = specs.mapM ColumnSpec.read := by
    rw [ColumnSpec.readList, h]
    rfl
  refine FailsWith.bind ?_ fun _ _ => FailsWith.bind ?_ fun _ _ => failsWith_ok _
  · unfold outputColumns
    rw [hread]
    split
    case h_1 failure hfailure =>
      exact failsWith_error (failsWith_mapM
        (fun spec hspec => ColumnSpec.read_closesQuotes (hclosed spec hspec)) failure hfailure)
    case h_2 => exact failsWith_error rfl
    case h_3 specs' _ hspecs =>
      refine failsWith_mapM fun spec hspec => Columns.output_closesQuotes _ ?_
      obtain ⟨text, htext, hspec⟩ := exists_of_mem_mapM hspecs hspec
      exact ColumnSpec.openQuote_formula_of_read (hclosed text htext) hspec
  · unfold Columns.optionalFilter
    split
    · exact failsWith_ok _
    · exact failsWith_ok _
    · refine FailsWith.map ?_ _
      intro failure hfailure
      obtain ⟨fault, -, rfl⟩ := exists_of_mapError_eq_error hfailure
      rfl

theorem summarize_of_splitList_eq_error {failure : Failure}
    (h : ColumnSpec.splitList r.columns = .error failure) : t.summarize E r = .error failure := by
  rw [summarize, outputColumns, ColumnSpec.readList, h]
  rfl

/-- Every spec of a list that can be split has its segments, and the tokens of its formula are not
refused for a quote. So a summary fails for an open quote only where the list is split. -/
theorem openQuote_found_by_splitList (E : Filter.Engine) (t : Table) (r : SummaryRequest) :
    (∀ specs, ColumnSpec.splitList r.columns = .ok specs → ∀ spec ∈ specs, ∃ formula segments,
      ColumnSpec.splitSegments spec = .ok (formula :: segments) ∧
        ∀ offset, Token.read (Text.trim formula) ≠ .error ⟨.unterminatedName, offset⟩) ∧
      (∀ spec, t.summarize E r = .error (.spec spec .unmatchedQuote) ↔
        ColumnSpec.splitList r.columns = .error (.spec spec .unmatchedQuote)) ∧
      ∀ formula offset,
        t.summarize E r ≠ .error (.compile formula (.formula ⟨.unterminatedName, offset⟩)) := by
  refine ⟨fun specs hsplit spec hspec => ?_, fun spec => ⟨fun hfailure => ?_, ?_⟩,
    fun formula offset hfailure => ?_⟩
  · obtain ⟨formula, segments, hsegments, hformula⟩ :=
      ColumnSpec.exists_splitSegments (ColumnSpec.openQuote_of_mem_splitList hsplit hspec)
    exact ⟨formula, segments, hsegments,
      Token.readFrom_ne_unterminated (Text.openQuote_trim hformula) 0⟩
  · cases hsplit : ColumnSpec.splitList r.columns with
    | error failure =>
      cases (summarize_of_splitList_eq_error hsplit).symm.trans hfailure
      rfl
    | ok specs => cases summarize_closesQuotes hsplit _ hfailure
  · exact summarize_of_splitList_eq_error
  · cases hsplit : ColumnSpec.splitList r.columns with
    | error failure =>
      cases (summarize_of_splitList_eq_error hsplit).symm.trans hfailure
      obtain ⟨_, ⟨⟩⟩ := ColumnSpec.splitList_failsWith _ _ hsplit
    | ok specs => cases summarize_closesQuotes hsplit _ hfailure

/-- A quoted name holds a semicolon, a parenthesis and white space, and another the other quote. -/
theorem openQuote_found_by_splitList_two_specs :
    let t : Table := ⟨some ["a; (".toList, "b'".toList], [.cells [['1'], ['2']]]⟩
    let r : SummaryRequest := ⟨"mean( 'a; (' );'x y' \"b'\"".toList, none, none, {}⟩
    ColumnSpec.splitList r.columns = .ok ["mean( 'a; (' );'x y'".toList, "\"b'\"".toList] ∧
      (∃ formula segments,
        ColumnSpec.splitSegments "mean( 'a; (' );'x y'".toList = .ok (formula :: segments) ∧
          ∀ offset, Token.read (Text.trim formula) ≠ .error ⟨.unterminatedName, offset⟩) ∧
      ∀ spec, t.summarize Script.engine r ≠ .error (.spec spec .unmatchedQuote) := by
  intro t r
  have hsplit : ColumnSpec.splitList r.columns =
      .ok ["mean( 'a; (' );'x y'".toList, "\"b'\"".toList] := by decide
  obtain ⟨hspecs, hsummary, -⟩ := openQuote_found_by_splitList Script.engine t r
  refine ⟨hsplit, hspecs _ hsplit _ List.mem_cons_self, fun spec hfailure => ?_⟩
  cases hsplit.symm.trans ((hsummary spec).mp hfailure)

end Table

end Rollup
