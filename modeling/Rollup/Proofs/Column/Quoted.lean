import Mathlib.Data.List.Basic
import Rollup.Column.Output
import Rollup.Proofs.Column.Segments
import Rollup.Proofs.Formula.Derivation
import Rollup.Proofs.Text.Trim

/-! # Names in quotes

A name may be put into a quote of either kind that it does not contain. Nothing between the quotes
is looked at when specs and segments are split and tokens are read, so that every column of a header
can be named.
-/

namespace Rollup

open Text (quoted)

section

variable {quote : Char} {name : Text}

theorem isWhite_of_isQuote (hquote : Text.isQuote quote) : Text.isWhite quote = false := by
  simp only [Text.isQuote, Bool.or_eq_true, decide_eq_true_eq] at hquote
  rcases hquote with rfl | rfl <;> decide

/-! ## Splitting -/

namespace Text

/-- A scan that waits for the closing quote makes no cut before it. -/
theorem splitWhere_quoted {σ : Type} {step : σ → Char → σ} {cuts : σ → Char → Bool} {s inside : σ}
    (hopen : step s quote = inside) (hs : ¬ cuts s quote)
    (hwaits : ∀ c ∈ name, step inside c = inside) (hinside : ∀ c, ¬ cuts inside c) :
    splitWhere step cuts s (quoted quote name) = [quoted quote name] := by
  have hname : splitWhere step cuts inside name = [] ++ [name] :=
    splitWhere_of_still fun c hc => ⟨hwaits c hc, hinside c⟩
  have hend : splitWhere step cuts (name.foldl step inside) [quote] = [[quote]] := by
    rw [foldl_of_still hwaits]
    exact splitWhere_cons_of_not_cuts (hinside quote) rfl
  apply splitWhere_cons_of_not_cuts hs
  rw [hopen]
  exact splitWhere_append hname hend

theorem quoteAfter_of_mem (hname : quote ∉ name) {c : Char} (hc : c ∈ name) :
    quoteAfter (some quote) c = some quote := by
  have hne : c ≠ quote := fun h => hname (h ▸ hc)
  simp [quoteAfter, hne]

theorem openQuote_quoted (hquote : isQuote quote) (hname : quote ∉ name) :
    openQuote (quoted quote name) = none := by
  have hopen : quoteAfter none quote = some quote := if_pos hquote
  have hwaits : name.foldl quoteAfter (some quote) = some quote :=
    foldl_of_still fun _ => quoteAfter_of_mem hname
  rw [openQuote, quoted, List.cons_append, List.foldl_cons, hopen, List.foldl_append, hwaits]
  exact if_pos rfl

theorem trim_quoted (hquote : isQuote quote) : trim (quoted quote name) = quoted quote name := by
  apply trim_eq_self
  · rintro c ⟨⟩
    simp [isWhite_of_isQuote hquote]
  · intro c hc
    rw [quoted, List.getLast?_concat] at hc
    cases hc
    simp [isWhite_of_isQuote hquote]

theorem unquote?_quoted (hquote : isQuote quote) : unquote? (quoted quote name) = some name := by
  simp [quoted, unquote?, before?, hquote]

end Text

namespace ColumnSpec

theorem splitList_quoted (hquote : Text.isQuote quote) (hname : quote ∉ name) :
    splitList (quoted quote name) = .ok [quoted quote name] := by
  have hstep : Nesting.step {} quote = ⟨some quote, 0⟩ := by
    have hne : quote ≠ '(' ∧ quote ≠ ')' := by
      constructor <;> rintro rfl <;> cases hquote
    simp [Nesting.step, Text.quoteAfter, hquote, hne]
  have hsplit : Text.splitWhere Nesting.step Nesting.cuts {} (quoted quote name) =
      [quoted quote name] := by
    apply Text.splitWhere_quoted hstep
    · simp [Nesting.cuts, isWhite_of_isQuote hquote]
    · intro c hc
      simp [Nesting.step, Text.quoteAfter_of_mem hname hc]
    · simp [Nesting.cuts]
  have hclosed : ((quoted quote name).foldl Nesting.step {}).quote = none := by
    rw [quote_foldl_step]
    exact Text.openQuote_quoted hquote hname
  unfold splitList
  rw [hsplit, hclosed]
  simp [quoted]

theorem read_quoted (hquote : Text.isQuote quote) (hname : quote ∉ name) :
    read (quoted quote name) =
      .ok { text := quoted quote name, formula := quoted quote name } := by
  have hopen : Text.quoteAfter none quote = some quote := if_pos hquote
  have hsegments : splitSegments (quoted quote name) = .ok [quoted quote name] := by
    unfold splitSegments
    rw [Text.openQuote_quoted hquote hname, Text.splitWhere_quoted hopen]
    · rfl
    · simp only [Option.isNone_none, Bool.true_and, decide_eq_true_eq]
      rintro rfl
      cases hquote
    · intro c hc
      exact Text.quoteAfter_of_mem hname hc
    · simp
  unfold read
  rw [hsegments]
  simp only [List.headD_cons, List.tail_cons, Text.trim_quoted hquote, addSegments]
  rw [if_neg (by simp [quoted])]

end ColumnSpec

/-! ## The formula that is a name -/

theorem Token.scan_quoted (hquote : Text.isQuote quote) (hname : quote ∉ name) (rest : Text) :
    scan quote (name ++ quote :: rest) = .ok (.quoted name, name.length + 1) := by
  have hsymbol : symbol? quote = none := by
    simp only [Text.isQuote, Bool.or_eq_true, decide_eq_true_eq] at hquote
    rcases hquote with rfl | rfl <;> rfl
  have hend : (name ++ quote :: rest).takeWhile (· != quote) = name := by
    apply Text.takeWhile_ne_append hname
    simp
  have hor : quote = '\'' ∨ quote = '"' := by simpa [Text.isQuote] using hquote
  unfold scan
  rw [hsymbol]
  dsimp only
  rw [if_pos hor, hend, if_neg (by simp)]

theorem Expr.read_quoted (hquote : Text.isQuote quote) (hname : quote ∉ name) :
    Expr.read (quoted quote name) = .ok (.name name true) := by
  have htokens : Token.read (quoted quote name) = .ok [⟨.quoted name, 0⟩] := by
    have hdrop : (name ++ [quote]).drop (name.length + 1) = [] := by simp
    have hscan := Token.scan_quoted hquote hname []
    rw [Token.read, quoted, List.cons_append]
    refine Formula.readFrom_of_scan (isWhite_of_isQuote hquote) hscan ?_
    rw [hdrop]
    exact Formula.readFrom_of_isBlank rfl
  exact Expr.read_eq_ok_iff.mpr
    ⟨_, htokens, .term (.unary (.power (.primary (.quoted name))))⟩

end

/-! ## Columns by their names -/

section

variable {t : Table} {header : List Text} {quote : Char} {name : Text}

theorem Table.position_name (hheader : t.header = some header) (hname : name ∈ header) :
    t.columns.position name true = .ok (header.idxOf name + 1) := by
  have hfirst : header.findIdx? (· = name) = some (header.idxOf name) := by
    have hsame : (fun other : Text => decide (other = name)) = (· == name) := by
      funext other
      exact Bool.eq_iff_iff.mpr (by simp)
    rw [List.findIdx?_eq_some_of_exists ⟨name, hname, by simp⟩, hsame]
    rfl
  simp [Columns.position, Columns.named, Table.columns, hheader, hfirst]

/-- A quoted name is one spec of a list, and the column that it names is the first one of the
header with this name, in specs as well as in lists of columns. -/
theorem Table.columns_quoted (hheader : t.header = some header) (hmem : name ∈ header)
    (hquote : Text.isQuote quote) (hname : quote ∉ name) :
    let text := quoted quote name
    let spec : ColumnSpec := { text := text, formula := text }
    ColumnSpec.splitList text = .ok [text] ∧ ColumnSpec.read text = .ok spec ∧
      t.columns.output spec = .ok ⟨spec, .key (header.idxOf name + 1)⟩ ∧
      t.columns.list text = .ok [header.idxOf name + 1] := by
  intro text spec
  have hsplit := ColumnSpec.splitList_quoted hquote hname
  have hfind : t.columns.find name true = .ok (header.idxOf name + 1) := by
    rw [Columns.find, Table.position_name hheader hmem]
    rfl
  refine ⟨hsplit, ColumnSpec.read_quoted hquote hname, ?_, ?_⟩
  · have hformula : t.columns.formula text = .ok (.column (header.idxOf name + 1)) := by
      rw [Columns.formula, Expr.read_quoted hquote hname]
      dsimp only
      rw [Expr.resolve, hfind]
      rfl
    rw [Columns.output, if_neg (by simp [spec]), hformula]
    rfl
  · have hitem : t.columns.item text = .ok (header.idxOf name + 1) := by
      rw [Columns.item, Text.unquote?_quoted hquote]
      dsimp only
      rw [hfind]
      rfl
    rw [Columns.list, hsplit]
    change [text].mapM t.columns.item = _
    rw [List.mapM_cons, hitem]
    rfl

/-- The name holds white space, a semicolon, a parenthesis and the other quote, and stands twice. -/
theorem Table.columns_quoted_twice :
    let header : List Text := ["hline".toList, "a; 'b(".toList, [], "a; 'b(".toList]
    let t : Table := ⟨some header, []⟩
    t.header = some header ∧ "a; 'b(".toList ∈ header ∧ Text.isQuote '"' ∧
      '"' ∉ "a; 'b(".toList ∧
      t.columns.list (quoted '"' "a; 'b(".toList) = .ok [2] := by
  intro header t
  have hmem : "a; 'b(".toList ∈ header := by decide
  have hname : '"' ∉ "a; 'b(".toList := by decide
  exact ⟨rfl, hmem, rfl, hname, (Table.columns_quoted rfl hmem rfl hname).2.2.2⟩

end

end Rollup
