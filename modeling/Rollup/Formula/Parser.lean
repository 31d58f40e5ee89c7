import Rollup.Formula.Expr
import Rollup.Formula.Token

/-! # Reading formulas

The grammar, with the operators of one line grouping to the left:

    expr    := term (("+" | "-") term)*
    term    := unary (("*" | "/") unary)*
    unary   := ("-" | "+") unary | power
    power   := primary ("^" unary)?
    primary := number | name | quoted | dollar | name "(" [expr ("," expr)*] ")" | "(" expr ")"

Every reader takes the tokens that are left and gives a result with fewer of them. A fault past the
last token stands at the end of the text, `stop`.
-/

namespace Rollup

namespace Formula

abbrev Tokens := List PlacedToken

/-- A result and the tokens after it, which are fewer than `ts`. -/
abbrev Step (α : Type) (ts : Tokens) := { r : α × Tokens // r.2.length < ts.length }

/-- A result and the tokens after it, which are no more than `ts`. -/
abbrev Rest (α : Type) (ts : Tokens) := { r : α × Tokens // r.2.length ≤ ts.length }

/-- The offset of the next token, or of the end. -/
def nextOffset (stop : Nat) : Tokens → Nat
  | [] => stop
  | t :: _ => t.offset

/-- The minus of a literal becomes part of it. -/
def negated : Expr → Expr
  | .number n => .number (-n)
  | e => .neg e

def sumOperator? : Token → Option Operator
  | .plus => some .add
  | .minus => some .sub
  | _ => none

def productOperator? : Token → Option Operator
  | .star => some .mul
  | .slash => some .div
  | _ => none

mutual

def expr (stop : Nat) (ts : Tokens) : Except FormulaFault (Step Expr ts) := do
  let ⟨(lhs, rest), (h : rest.length < ts.length)⟩ ← term stop ts
  let ⟨(e, rest), h'⟩ ← sumTail stop lhs rest
  return ⟨(e, rest), by simp at h h' ⊢; omega⟩
termination_by (ts.length, 6)

/-- The operators of a sum and their right operands. -/
def sumTail (stop : Nat) (lhs : Expr) (ts : Tokens) : Except FormulaFault (Rest Expr ts) :=
  match ts with
  | [] => .ok ⟨(lhs, []), by simp⟩
  | t :: ts =>
    match sumOperator? t.token with
    | none => .ok ⟨(lhs, t :: ts), by simp⟩
    | some op => do
      let ⟨(rhs, rest), (h : rest.length < ts.length)⟩ ← term stop ts
      let ⟨(e, rest), h'⟩ ← sumTail stop (.binary op lhs rhs) rest
      return ⟨(e, rest), by simp at h h' ⊢; omega⟩
termination_by (ts.length, 0)

def term (stop : Nat) (ts : Tokens) : Except FormulaFault (Step Expr ts) := do
  let ⟨(lhs, rest), (h : rest.length < ts.length)⟩ ← unary stop ts
  let ⟨(e, rest), h'⟩ ← productTail stop lhs rest
  return ⟨(e, rest), by simp at h h' ⊢; omega⟩
termination_by (ts.length, 5)

/-- The operators of a product and their right operands. -/
def productTail (stop : Nat) (lhs : Expr) (ts : Tokens) : Except FormulaFault (Rest Expr ts) :=
  match ts with
  | [] => .ok ⟨(lhs, []), by simp⟩
  | t :: ts =>
    match productOperator? t.token with
    | none => .ok ⟨(lhs, t :: ts), by simp⟩
    | some op => do
      let ⟨(rhs, rest), (h : rest.length < ts.length)⟩ ← unary stop ts
      let ⟨(e, rest), h'⟩ ← productTail stop (.binary op lhs rhs) rest
      return ⟨(e, rest), by simp at h h' ⊢; omega⟩
termination_by (ts.length, 0)

def unary (stop : Nat) (ts : Tokens) : Except FormulaFault (Step Expr ts) :=
  match ts with
  | ⟨.minus, _⟩ :: ts => do
    let ⟨(e, rest), (h : rest.length < ts.length)⟩ ← unary stop ts
    return ⟨(negated e, rest), by simp at h ⊢; omega⟩
  | ⟨.plus, _⟩ :: ts => do
    let ⟨(e, rest), (h : rest.length < ts.length)⟩ ← unary stop ts
    return ⟨(e, rest), by simp at h ⊢; omega⟩
  | ts => power stop ts
termination_by (ts.length, 4)

def power (stop : Nat) (ts : Tokens) : Except FormulaFault (Step Expr ts) := do
  let ⟨(base, rest), (h : rest.length < ts.length)⟩ ← primary stop ts
  match rest, h with
  | ⟨.caret, _⟩ :: rest, h => do
    have h : rest.length + 1 < ts.length := h
    let ⟨(exponent, after), h'⟩ ← unary stop rest
    return ⟨(.binary .pow base exponent, after), by simp at h' ⊢; omega⟩
  | rest, h => return ⟨(base, rest), h⟩
termination_by (ts.length, 3)

def primary (stop : Nat) (ts : Tokens) : Except FormulaFault (Step Expr ts) :=
  match ts with
  | [] => .error ⟨.unexpectedEnd, stop⟩
  | ⟨.number n, _⟩ :: ts => .ok ⟨(.number n, ts), by simp⟩
  | ⟨.quoted t, _⟩ :: ts => .ok ⟨(.name t true, ts), by simp⟩
  | ⟨.dollar n, _⟩ :: ts => .ok ⟨(.name ('$' :: Text.ofNat n) false, ts), by simp⟩
  | ⟨.name t, offset⟩ :: ⟨.lparen, _⟩ :: ts =>
    match Function.lookup? t with
    | none => .error ⟨.unknownFunction t, offset⟩
    | some f => do
      let ⟨(args, rest), (h : rest.length < ts.length)⟩ ← arguments stop ts
      if f.arity.accepts args.length then
        return ⟨(.call f args, rest), by simp at h ⊢; omega⟩
      else .error ⟨.wrongArgumentCount f.name args.length, offset⟩
  | ⟨.name t, _⟩ :: ts => .ok ⟨(.name t false, ts), by simp⟩
  | ⟨.lparen, _⟩ :: ts => do
    let ⟨(e, rest), (h : rest.length < ts.length)⟩ ← expr stop ts
    match rest, h with
    | ⟨.rparen, _⟩ :: rest, h => return ⟨(e, rest), by simp at h ⊢; omega⟩
    | rest, _ => .error ⟨.missingClose, nextOffset stop rest⟩
  | t :: _ => .error ⟨.missingValue, t.offset⟩
termination_by (ts.length, 2)

/-- The arguments of a call and the parenthesis that ends them. -/
def arguments (stop : Nat) (ts : Tokens) : Except FormulaFault (Step (List Expr) ts) :=
  match ts with
  | ⟨.rparen, _⟩ :: ts => .ok ⟨([], ts), by simp⟩
  | ts => argumentList stop ts
termination_by (ts.length, 8)

/-- One or more arguments, separated by commas, and the parenthesis that ends them. -/
def argumentList (stop : Nat) (ts : Tokens) : Except FormulaFault (Step (List Expr) ts) := do
  let ⟨(e, rest), (h : rest.length < ts.length)⟩ ← expr stop ts
  match rest, h with
  | ⟨.comma, _⟩ :: rest, h => do
    have h : rest.length + 1 < ts.length := h
    let ⟨(es, after), h'⟩ ← argumentList stop rest
    return ⟨(e :: es, after), by simp at h' ⊢; omega⟩
  | ⟨.rparen, _⟩ :: rest, h => return ⟨([e], rest), by simp at h ⊢; omega⟩
  | rest, _ => .error ⟨.missingCommaOrClose, nextOffset stop rest⟩
termination_by (ts.length, 7)

end

end Formula

/-- Reads a formula whose columns are names. -/
def Expr.read (t : Text) : Except FormulaFault Expr :=
  if Text.isBlank t then .error ⟨.emptyFormula, 0⟩
  else do
    let ts ← Token.read t
    let ⟨(e, rest), _⟩ ← Formula.expr (Text.byteSize t) ts
    match rest with
    | [] => return e
    | extra :: _ => .error ⟨.trailingInput, extra.offset⟩

end Rollup
