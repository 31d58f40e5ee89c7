import Mathlib.Data.Nat.Notation
import Rollup.Filter.Engine
import Rollup.Filter.Reference

/-! # The course of an evaluation

An engine gives the truth value of a program. What is relied on besides is how it comes to that: an
access to a missing item fails, and a right operand that cannot matter is not looked at.
-/

namespace Rollup.Filter

/-- What the evaluations of an engine come to, and what its programs are made of. -/
structure Engine.Course (E : Engine) where
  /-- The evaluation of a program for these items comes to what its script has at a byte offset. -/
  Reaches (p : E.Program) (items : List Item) (offset : ℕ) : Prop
  /-- A program joins two others by the operator that a left operand with the value `decided`
  decides: `||` with true, `&&` with false. -/
  Joins (decided : Bool) (p lhs rhs : E.Program) : Prop

structure Engine.Course.IsLawful {E : Engine} (c : E.Course) : Prop where
  /-- An evaluation fails when it comes to an access past the end of the row. -/
  past_end {p : E.Program} {items : List Item} {i : ℕ} {before after : Text}
    (hp : E.compile (before ++ access i ++ after) = .ok p)
    (hreaches : c.Reaches p items (Text.byteSize before)) (hend : items.length ≤ i) :
    E.truth? p items = none
  /-- The right operand is looked at when the left one is a truth value that does not decide. -/
  short_circuit {decided : Bool} {p lhs rhs : E.Program} (hjoins : c.Joins decided p lhs rhs)
    (items : List Item) :
    E.truth? p items = (E.truth? lhs items).bind fun b =>
      if b = decided then some b else E.truth? rhs items
  left {decided : Bool} {p lhs rhs : E.Program} {items : List Item} {offset : ℕ}
    (hjoins : c.Joins decided p lhs rhs) (h : c.Reaches lhs items offset) :
    c.Reaches p items offset
  right {decided : Bool} {p lhs rhs : E.Program} {items : List Item} {offset : ℕ}
    (hjoins : c.Joins decided p lhs rhs) (hlhs : E.truth? lhs items = some !decided)
    (h : c.Reaches rhs items offset) : c.Reaches p items offset

section

variable {E : Engine} {c : E.Course} {decided : Bool} {p lhs rhs : E.Program} {items : List Item}
  {i : ℕ} {before after : Text}

/-- With an access past the end in its right operand, a program has a value only if the left one
decides. -/
theorem Engine.Course.IsLawful.truth?_of_right (hc : c.IsLawful)
    (hp : E.compile (before ++ access i ++ after) = .ok p) (hjoins : c.Joins decided p lhs rhs)
    (hreaches : c.Reaches rhs items (Text.byteSize before)) (hend : items.length ≤ i) :
    E.truth? p items = (E.truth? lhs items).filter (· = decided) := by
  cases hlhs : E.truth? lhs items with
  | none =>
    rw [hc.short_circuit hjoins, hlhs]
    rfl
  | some b =>
    by_cases hb : b = decided
    · rw [hc.short_circuit hjoins, hlhs, Option.bind_some, if_pos hb, Option.filter_some,
        if_pos (decide_eq_true hb)]
    · have hlhs' : E.truth? lhs items = some !decided := by rw [hlhs, Bool.eq_not_of_ne hb]
      rw [hc.past_end hp (hc.right hjoins hlhs' hreaches) hend, Option.filter_some,
        if_neg (mt of_decide_eq_true hb)]

end

end Rollup.Filter
