import Mathlib.Data.Nat.Notation
import Rollup.Formula.Parser
import Rollup.Proofs.Failing

/-! # Faults of formulas

A formula is refused for its characters or for the order of its tokens. The readers of tokens find
faults of the second kind only, so that a fault of the first kind is one of reading the tokens.
-/

namespace Rollup

/-- Whether a problem is with the characters of a formula, before there are tokens. -/
def FormulaProblem.isLexical : FormulaProblem → Bool
  | unterminatedName | missingColumnNumber | invalidNumber _ | unexpectedCharacter _ => true
  | _ => false

namespace Formula

/-- A step that finds no fault with characters. -/
def Syntactic {α : Type} (x : Except FormulaFault α) : Prop :=
  FailsWith (fun fault => fault.problem.isLexical = false) x

/-! ## Readers -/

variable (stop : ℕ)

-- The recursion is that of the readers, on the tokens that are left and then on the production.
mutual

theorem syntactic_expr (ts : Tokens) : Syntactic (expr stop ts) := by
  rw [expr]
  refine (syntactic_term ts).bind ?_
  rintro ⟨⟨lhs, rest⟩, h⟩ -
  have hlt : rest.length < ts.length := h
  exact (syntactic_sumTail lhs rest).bind fun _ _ => failsWith_ok _
termination_by (ts.length, 6)

theorem syntactic_sumTail (lhs : Expr) (ts : Tokens) : Syntactic (sumTail stop lhs ts) := by
  cases ts with
  | nil =>
    rw [sumTail]
    exact failsWith_ok _
  | cons t ts =>
    rw [sumTail]
    split
    · exact failsWith_ok _
    · refine (syntactic_term ts).bind ?_
      rintro ⟨⟨rhs, rest⟩, h⟩ -
      have hlt : rest.length < ts.length := h
      exact (syntactic_sumTail _ rest).bind fun _ _ => failsWith_ok _
termination_by (ts.length, 0)

theorem syntactic_term (ts : Tokens) : Syntactic (term stop ts) := by
  rw [term]
  refine (syntactic_unary ts).bind ?_
  rintro ⟨⟨lhs, rest⟩, h⟩ -
  have hlt : rest.length < ts.length := h
  exact (syntactic_productTail lhs rest).bind fun _ _ => failsWith_ok _
termination_by (ts.length, 5)

theorem syntactic_productTail (lhs : Expr) (ts : Tokens) :
    Syntactic (productTail stop lhs ts) := by
  cases ts with
  | nil =>
    rw [productTail]
    exact failsWith_ok _
  | cons t ts =>
    rw [productTail]
    split
    · exact failsWith_ok _
    · refine (syntactic_unary ts).bind ?_
      rintro ⟨⟨rhs, rest⟩, h⟩ -
      have hlt : rest.length < ts.length := h
      exact (syntactic_productTail _ rest).bind fun _ _ => failsWith_ok _
termination_by (ts.length, 0)

theorem syntactic_unary (ts : Tokens) : Syntactic (unary stop ts) := by
  rw [unary.eq_def]
  split
  case h_1 ts => exact (syntactic_unary ts).bind fun _ _ => failsWith_ok _
  case h_2 ts => exact (syntactic_unary ts).bind fun _ _ => failsWith_ok _
  case h_3 => exact syntactic_power ts
termination_by (ts.length, 4)

theorem syntactic_power (ts : Tokens) : Syntactic (power stop ts) := by
  rw [power]
  refine (syntactic_primary ts).bind ?_
  rintro ⟨⟨base, rest⟩, h⟩ -
  dsimp only
  split
  case h_1 offset rest h =>
    have hlt : rest.length + 1 < ts.length := h
    exact (syntactic_unary rest).bind fun _ _ => failsWith_ok _
  case h_2 => exact failsWith_ok _
termination_by (ts.length, 3)

theorem syntactic_primary (ts : Tokens) : Syntactic (primary stop ts) := by
  rw [primary.eq_def]
  split
  case h_1 => exact failsWith_error rfl
  case h_2 => exact failsWith_ok _
  case h_3 => exact failsWith_ok _
  case h_4 => exact failsWith_ok _
  case h_5 =>
    split
    · exact failsWith_error rfl
    · refine (syntactic_arguments _).bind ?_
      rintro ⟨⟨args, rest⟩, h⟩ -
      dsimp only
      split
      · exact failsWith_ok _
      · exact failsWith_error rfl
  case h_6 => exact failsWith_ok _
  case h_7 =>
    refine (syntactic_expr _).bind ?_
    rintro ⟨⟨e, rest⟩, h⟩ -
    dsimp only
    split
    · exact failsWith_ok _
    · exact failsWith_error rfl
  case h_8 => exact failsWith_error rfl
termination_by (ts.length, 2)

theorem syntactic_arguments (ts : Tokens) : Syntactic (arguments stop ts) := by
  rw [arguments.eq_def]
  split
  · exact failsWith_ok _
  · exact syntactic_argumentList ts
termination_by (ts.length, 8)

theorem syntactic_argumentList (ts : Tokens) : Syntactic (argumentList stop ts) := by
  rw [argumentList]
  refine (syntactic_expr ts).bind ?_
  rintro ⟨⟨e, rest⟩, h⟩ -
  dsimp only
  split
  case h_1 offset rest h =>
    have hlt : rest.length + 1 < ts.length := h
    exact (syntactic_argumentList rest).bind fun _ _ => failsWith_ok _
  case h_2 => exact failsWith_ok _
  case h_3 => exact failsWith_error rfl
termination_by (ts.length, 7)

end

end Formula

/-- A formula that is refused for its characters is refused when its tokens are read. -/
theorem Expr.token_read_of_isLexical {t : Text} {fault : FormulaFault}
    (h : Expr.read t = .error fault) (hlexical : fault.problem.isLexical = true) :
    Token.read t = .error fault := by
  unfold Expr.read at h
  split at h
  · cases h
    cases hlexical
  · rcases eq_error_or_of_bind_eq_error h with h | ⟨ts, -, h⟩
    · exact h
    · rcases eq_error_or_of_bind_eq_error h with h | ⟨⟨⟨e, rest⟩, _⟩, -, h⟩
      · rw [Formula.syntactic_expr _ _ _ h] at hlexical
        cases hlexical
      · dsimp only at h
        split at h
        · cases h
        · cases h
          cases hlexical

end Rollup
