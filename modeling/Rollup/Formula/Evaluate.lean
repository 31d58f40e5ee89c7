import Rollup.Formula.Expr
import Rollup.Formula.Statistics

/-! # Evaluating formulas

A formula is evaluated over a group of rows. A column is the sequence of its values, and operators
work on sequences value by value.
-/

namespace Rollup

/-- What a formula gives: one value or a sequence. -/
inductive Outcome where
  | scalar (v : Value)
  | sequence (vs : List Value)

namespace Outcome

def map (f : Value → Value) : Outcome → Outcome
  | scalar v => scalar (f v)
  | sequence vs => sequence (vs.map f)

/-- As a sequence. An empty value is none. -/
def values : Outcome → List Value
  | scalar .empty => []
  | scalar v => [v]
  | sequence vs => vs

def listed (vs : List Text) : Text := '[' :: Text.joinWith [',', ' '] vs ++ [']']

/-- A value combines with every element of a sequence, and sequences of one length pairwise. Others
leave the operation written out. -/
def combine (op : Operator) : Outcome → Outcome → Outcome
  | scalar a, scalar b => scalar (.combine op a b)
  | sequence xs, scalar b => sequence (xs.map (.combine op · b))
  | scalar a, sequence ys => sequence (ys.map (.combine op a ·))
  | sequence xs, sequence ys =>
    if xs.length = ys.length then sequence (List.zipWith (.combine op) xs ys)
    else scalar (.text (listed (xs.map Value.operandText) ++ [' ', op.symbol, ' '] ++
      listed (ys.map Value.operandText)))

/-- The text of a result. A sequence is put in brackets. -/
def print (f : CellFormat) (defaults : FormatDefaults) : Outcome → Text
  | scalar v => f.value defaults v
  | sequence vs => listed (vs.map (f.value defaults))

end Outcome

section

variable {m : Type → Type} [Monad m] (sort : List Float → m (List Float))

/-- Applies a function to the outcomes of its arguments. -/
def Function.applyBy (f : Function) (args : List Outcome) (rowCount : Nat) (angles : AngleMode) :
    m Outcome :=
  match f, args with
  | .math f, arg :: _ => pure (arg.map (f.applyTo angles))
  | .math _, [] => pure (.scalar .empty)
  | .aggregate .count, [] => pure (.scalar (.number (Float.ofNat rowCount)))
  | .aggregate a, args =>
    if (Function.aggregate a).arity = .exactly 2 then
      match args with
      | xs :: ys :: _ => pure (.scalar (a.reducePair xs.values ys.values))
      | _ => pure (.scalar .empty)
    else .scalar <$> a.reduceBy sort ((args.head?.map Outcome.values).getD [])

end

/-- Applies a function, with a sort that never fails. -/
def Function.apply (f : Function) (args : List Outcome) (rowCount : Nat) (angles : AngleMode) :
    Outcome :=
  (f.applyBy (fun xs => (pure (Statistics.sorted xs) : Id _)) args rowCount angles).run

theorem Function.apply_def (f : Function) (args : List Outcome) (rowCount : Nat)
    (angles : AngleMode) : f.apply args rowCount angles =
    match f, args with
    | .math f, arg :: _ => arg.map (f.applyTo angles)
    | .math _, [] => .scalar .empty
    | .aggregate .count, [] => .scalar (.number (Float.ofNat rowCount))
    | .aggregate a, args =>
      if (Function.aggregate a).arity = .exactly 2 then
        match args with
        | xs :: ys :: _ => .scalar (a.reducePair xs.values ys.values)
        | _ => .scalar .empty
      else .scalar (a.reduce ((args.head?.map Outcome.values).getD [])) := by
  unfold apply applyBy
  split <;> rfl

/-- The columns of a group of rows. -/
structure Sequences where
  rowCount : Nat
  /-- The values of the column at a position. -/
  column : Nat → List Value

namespace Expr

section

variable {m : Type → Type} [Monad m] (sort : List Float → m (List Float))

mutual

/-- The value of a formula over a group. Names that were not resolved stand for themselves. -/
def evaluateBy (s : Sequences) (angles : AngleMode) : Expr → m Outcome
  | number n => pure (.scalar (.number n))
  | name t _ => pure (.scalar (.text t))
  | column position => pure (.sequence (s.column position))
  | neg e => do return (← e.evaluateBy s angles).map Value.negate
  | binary op lhs rhs => do
    let a ← lhs.evaluateBy s angles
    let b ← rhs.evaluateBy s angles
    return Outcome.combine op a b
  | call f args => do
    let outcomes ← evaluateAllBy s angles args
    f.applyBy sort outcomes s.rowCount angles

def evaluateAllBy (s : Sequences) (angles : AngleMode) : List Expr → m (List Outcome)
  | [] => pure []
  | e :: es => do
    let o ← e.evaluateBy s angles
    let outcomes ← evaluateAllBy s angles es
    return o :: outcomes

end

end

section

variable (s : Sequences) (angles : AngleMode)

/-- The value of a formula, with a sort that never fails. -/
def evaluate (e : Expr) : Outcome :=
  (e.evaluateBy (fun xs => (pure (Statistics.sorted xs) : Id _)) s angles).run

def evaluateAll (es : List Expr) : List Outcome :=
  (evaluateAllBy (fun xs => (pure (Statistics.sorted xs) : Id _)) s angles es).run

theorem evaluate_column (position : Nat) :
    (column position).evaluate s angles = .sequence (s.column position) := rfl

theorem evaluate_neg (e : Expr) :
    (neg e).evaluate s angles = (e.evaluate s angles).map Value.negate := rfl

theorem evaluate_binary (op : Operator) (lhs rhs : Expr) : (binary op lhs rhs).evaluate s angles =
    Outcome.combine op (lhs.evaluate s angles) (rhs.evaluate s angles) := rfl

theorem evaluate_call (f : Function) (args : List Expr) : (call f args).evaluate s angles =
    f.apply (evaluateAll s angles args) s.rowCount angles := rfl

theorem evaluateAll_cons (e : Expr) (es : List Expr) :
    evaluateAll s angles (e :: es) = e.evaluate s angles :: evaluateAll s angles es := rfl

end

end Expr

end Rollup
