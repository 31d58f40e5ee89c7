import Rollup.Proofs.Filter.Unknown
import Rollup.Proofs.Script.Course

/-! # Rows that are too short for a filter

A filter has an access in the place of every mention of a column. Where its evaluation comes to the
access, a row without the cell is rejected. A right operand of `||` is not looked at when the left
one is true, so that a row may be accepted without a cell that the filter mentions.
-/

namespace Rollup

open Rollup.Filter

namespace RowFilter

theorem length_rowItems (r : BodyRow) : (rowItems r).length = r.cells.length + 1 := by
  simp [rowItems]

theorem accepts_ofProgram_iff {E : Engine} (p : E.Program) (r : BodyRow) :
    (ofProgram p).accepts r ↔ E.truth? p (rowItems r) = some true := by
  rw [accepts, decide_eq_true_iff]
  rfl

section

variable {E : Engine} {c : E.Course} {position : Text → Bool → Option ℕ} {expression rest : Text}
  {f : RowFilter} {before after : List Part} {m : Mention} {offset i : ℕ} {r : BodyRow}

/-- The program of a filter that mentions a column has an access to its cell there. A row without
the cell is rejected if the evaluation comes to the access, as it does if that of a left operand
does. If that of the right operand of the whole filter does, the row is accepted exactly if the
filter is a `||` and its left operand is true. -/
theorem rejects_missing_cell (hc : c.IsLawful) (hf : compile E position expression = .ok f)
    (hparts : IsParts none 0 expression (before ++ .mention m offset :: after))
    (hcolumn : m.column? position = some (i, rest)) (hshort : r.cells.length < i) :
    let start := before.flatMap (Part.replaced position)
    ∃ p, E.compile (start ++ access i ++ (rest ++ after.flatMap (Part.replaced position))) = .ok p ∧
      f = ofProgram p ∧
      (c.Reaches p (rowItems r) (Text.byteSize start) → f.accepts r = false) ∧
      ∀ decided lhs rhs, c.Joins decided p lhs rhs →
        (c.Reaches lhs (rowItems r) (Text.byteSize start) → f.accepts r = false) ∧
        (c.Reaches rhs (rowItems r) (Text.byteSize start) →
          (f.accepts r ↔ decided = true ∧ E.truth? lhs (rowItems r) = some true)) := by
  intro start
  obtain ⟨-, p, hp, rfl⟩ := compile_eq_ok_iff.mp hf
  rw [← isParts_iff.mp hparts] at hp
  have hscript : (before ++ .mention m offset :: after).flatMap (Part.replaced position) =
      start ++ access i ++ (rest ++ after.flatMap (Part.replaced position)) := by
    simp [start, Part.replaced, hcolumn]
  rw [hscript] at hp
  have hend : (rowItems r).length ≤ i := by
    rw [length_rowItems]
    exact hshort
  have hreject (h : c.Reaches p (rowItems r) (Text.byteSize start)) :
      (ofProgram p).accepts r = false := by
    rw [Bool.eq_false_iff, ne_eq, accepts_ofProgram_iff, hc.past_end hp h hend]
    exact nofun
  refine ⟨p, hp, rfl, hreject, ?_⟩
  intro decided lhs rhs hjoins
  refine ⟨fun hlhs => hreject (hc.left hjoins hlhs), ?_⟩
  intro hrhs
  rw [accepts_ofProgram_iff, hc.truth?_of_right hp hjoins hrhs hend, Option.filter_eq_some_iff,
    decide_eq_true_iff, and_comm, eq_comm]

end

/-! ### The second of two columns -/

/-- The positions in a table with two columns and no header. -/
def secondOfTwo (name : Text) (quoted : Bool) : Option ℕ :=
  ((⟨none, 2⟩ : Columns).position name quoted).toOption

def eitherColumn : Text := "$1 == \"x\" || $2 > 0".toList

def eitherScript : Text := "row[1] == \"x\" || row[2] > 0".toList

/-- What the filter has before its second column. -/
def beforeSecond : List Part :=
  .mention (.position ['1']) 0 :: " == \"x\" || ".toList.map .plain

/-- What the filter has after its second column. -/
def afterSecond : List Part := " > 0".toList.map .plain

def leftTerm : Script.Term :=
  .binary .equal (.element (.row 0) (.int 1)) (.string "x".toList)

def rightTerm : Script.Term := .binary .greater (.element (.row 17) (.int 2)) (.int 0)

def eitherTerm : Script.Term := .binary .or leftTerm rightTerm

theorem isParts_eitherColumn :
    IsParts none 0 eitherColumn (beforeSecond ++ .mention (.position ['2']) 13 :: afterSecond) := by
  have hcut : cut eitherColumn = [.outside "$1 == ".toList, .literal "\"x\"".toList,
      .outside " || $2 > 0".toList] := by with_unfolding_all rfl
  have hfirst : parts 0 none "$1 == ".toList = [.mention (.position ['1']) 0, .plain ' ',
      .plain '=', .plain '=', .plain ' '] := by with_unfolding_all rfl
  have hsecond : parts 9 none " || $2 > 0".toList = [.plain ' ', .plain '|', .plain '|',
      .plain ' ', .mention (.position ['2']) 13, .plain ' ', .plain '>', .plain ' ',
      .plain '0'] := by with_unfolding_all rfl
  have hbytes : Text.byteSize "$1 == ".toList = 6 ∧ Text.byteSize "\"x\"".toList = 3 := ⟨rfl, rfl⟩
  rw [isParts_iff, scriptParts, hcut]
  simp only [placed, Piece.text, hbytes, List.flatMap_cons, placedParts, hfirst, hsecond]
  rfl

theorem read_eitherScript : Script.Term.read eitherScript = .ok eitherTerm := by
  have htokens : Script.readTokens false 0 eitherScript = .ok [
      ⟨.word "row".toList, 0⟩, ⟨.symbol .lbracket, 3⟩, ⟨.int 1, 4⟩, ⟨.symbol .rbracket, 5⟩,
      ⟨.symbol .equal, 7⟩, ⟨.string "x".toList, 10⟩, ⟨.symbol .disjunction, 14⟩,
      ⟨.word "row".toList, 17⟩, ⟨.symbol .lbracket, 20⟩, ⟨.int 2, 21⟩, ⟨.symbol .rbracket, 22⟩,
      ⟨.symbol .greater, 24⟩, ⟨.int 0, 26⟩] := by with_unfolding_all rfl
  rw [Script.Term.read, htokens]
  simp [Script.term, Script.unary, Script.primary, Script.accesses, Script.operators,
    Script.unaryOperator?, Script.isIndexable, Script.BinaryOperator.ofToken?,
    Script.BinaryOperator.ofSymbol?, Script.BinaryOperator.strength,
    Script.BinaryOperator.rightStrength, Script.joined, Script.isOtherLiteral,
    Script.reservedWords, Script.rowName, bind, Except.bind, pure, Except.pure, eitherTerm,
    leftTerm, rightTerm]

theorem compile_eitherColumn : compile Script.engine secondOfTwo eitherColumn =
    .ok (ofProgram (E := Script.engine) eitherTerm) := by
  have hscript : (beforeSecond ++ .mention (.position ['2']) 13 :: afterSecond).flatMap
      (Part.replaced secondOfTwo) = eitherScript := by with_unfolding_all rfl
  rw [compile_eq_ok_iff, ← isParts_iff.mp isParts_eitherColumn, hscript]
  refine ⟨rfl, eitherTerm, ?_, rfl⟩
  exact congrArg (Except.mapError _) read_eitherScript

/-- The left operand is false, so the cell is needed. -/
theorem rejects_missing_cell_needed :
    let r : BodyRow := ⟨["z".toList], 0⟩
    let m : Mention := .position ['2']
    let f := ofProgram (E := Script.engine) eitherTerm
    Script.course.IsLawful ∧ compile Script.engine secondOfTwo eitherColumn = .ok f ∧
      IsParts none 0 eitherColumn (beforeSecond ++ .mention m 13 :: afterSecond) ∧
      m.column? secondOfTwo = some (2, []) ∧ r.cells.length < 2 ∧
      Script.engine.compile eitherScript = .ok eitherTerm ∧
      Script.course.Joins true eitherTerm leftTerm rightTerm ∧
      Script.course.Reaches rightTerm (rowItems r) 17 ∧
      Script.engine.truth? leftTerm (rowItems r) = some false ∧
      Script.course.Reaches eitherTerm (rowItems r) 17 ∧ f.accepts r = false := by
  intro r m f
  have hcolumn : m.column? secondOfTwo = some (2, []) := rfl
  have hshort : r.cells.length < 2 := by decide
  have hread : Script.engine.compile eitherScript = .ok eitherTerm :=
    congrArg (Except.mapError _) read_eitherScript
  have hjoins : Script.course.Joins true eitherTerm leftTerm rightTerm := ⟨.or, rfl, rfl⟩
  have hright : Script.course.Reaches rightTerm (rowItems r) 17 := ⟨_, .left .self⟩
  have hleft : Script.engine.truth? leftTerm (rowItems r) = some false := by cbv
  have hreaches := Script.isLawful_course.right hjoins hleft hright
  obtain ⟨p, hp, hf, hreject, -⟩ := rejects_missing_cell Script.isLawful_course
    compile_eitherColumn isParts_eitherColumn hcolumn hshort
  have hscript : beforeSecond.flatMap (Part.replaced secondOfTwo) ++ access 2 ++
      ([] ++ afterSecond.flatMap (Part.replaced secondOfTwo)) = eitherScript := by
    with_unfolding_all rfl
  rw [hscript, hread] at hp
  obtain rfl := Except.ok.inj hp
  exact ⟨Script.isLawful_course, compile_eitherColumn, isParts_eitherColumn, hcolumn, hshort, hread,
    hjoins, hright, hleft, hreaches, hreject hreaches⟩

/-- The left operand is true, so the row is accepted without the cell. -/
theorem accepts_missing_cell_left_out :
    let r : BodyRow := ⟨["x".toList], 0⟩
    let m : Mention := .position ['2']
    let f := ofProgram (E := Script.engine) eitherTerm
    compile Script.engine secondOfTwo eitherColumn = .ok f ∧
      IsParts none 0 eitherColumn (beforeSecond ++ .mention m 13 :: afterSecond) ∧
      m.column? secondOfTwo = some (2, []) ∧ r.cells.length < 2 ∧ f.accepts r = true :=
  ⟨compile_eitherColumn, isParts_eitherColumn, rfl, by decide, by cbv⟩

end RowFilter

end Rollup
