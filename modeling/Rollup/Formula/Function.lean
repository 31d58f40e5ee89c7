import Rollup.Text.Case

/-! # The functions of formulas

An aggregate reduces a sequence to one value, a mathematical function applies to every value. Names
are found in any case, those of aggregates also with a `v` in front.
-/

namespace Rollup

inductive Aggregate where
  | count
  | list
  | sum
  | prod
  | mean
  | meanError
  | harmonicMean
  | geometricMean
  | median
  | min
  | max
  | variance
  | populationVariance
  | deviation
  | populationDeviation
  | covariance
  | populationCovariance
  | correlation
  | span
deriving DecidableEq, Repr

inductive MathFunction where
  | abs
  | sqrt
  | exp
  | ln
  | log10
  | floor
  | ceil
  | round
  | sin
  | cos
  | tan
deriving DecidableEq, Repr

inductive Function where
  | aggregate (a : Aggregate)
  | math (f : MathFunction)
deriving DecidableEq, Repr

inductive Arity where
  | exactly (n : Nat)
  /-- Without an argument the rows are counted, with one its values. -/
  | zeroOrOne
deriving DecidableEq, Repr

def Arity.accepts : Arity → Nat → Bool
  | exactly k, n => n = k
  | zeroOrOne, n => n ≤ 1

def Aggregate.name : Aggregate → Text
  | count => "count".toList
  | list => "list".toList
  | sum => "sum".toList
  | prod => "prod".toList
  | mean => "mean".toList
  | meanError => "meane".toList
  | harmonicMean => "hmean".toList
  | geometricMean => "gmean".toList
  | median => "median".toList
  | min => "min".toList
  | max => "max".toList
  | variance => "var".toList
  | populationVariance => "pvar".toList
  | deviation => "sdev".toList
  | populationDeviation => "psdev".toList
  | covariance => "cov".toList
  | populationCovariance => "pcov".toList
  | correlation => "corr".toList
  | span => "span".toList

def MathFunction.name : MathFunction → Text
  | abs => "abs".toList
  | sqrt => "sqrt".toList
  | exp => "exp".toList
  | ln => "ln".toList
  | log10 => "log10".toList
  | floor => "floor".toList
  | ceil => "ceil".toList
  | round => "round".toList
  | sin => "sin".toList
  | cos => "cos".toList
  | tan => "tan".toList

def Aggregate.description : Aggregate → String
  | count => "Number of rows, or of non-empty values"
  | list => "Comma-separated values in source order"
  | sum => "Sum of values"
  | prod => "Product of values"
  | mean => "Arithmetic mean"
  | meanError => "Mean with standard error"
  | harmonicMean => "Harmonic mean"
  | geometricMean => "Geometric mean"
  | median => "Median value"
  | min => "Smallest value"
  | max => "Largest value"
  | variance => "Sample variance"
  | populationVariance => "Population variance"
  | deviation => "Sample standard deviation"
  | populationDeviation => "Population standard deviation"
  | covariance => "Sample covariance of two columns"
  | populationCovariance => "Population covariance of two columns"
  | correlation => "Correlation coefficient of two columns"
  | span => "Largest minus smallest value"

def MathFunction.description : MathFunction → String
  | abs => "Absolute value"
  | sqrt => "Square root"
  | exp => "Exponential"
  | ln => "Natural logarithm"
  | log10 => "Base-10 logarithm"
  | floor => "Round down"
  | ceil => "Round up"
  | round => "Round to nearest integer"
  | sin => "Sine (angle mode applies)"
  | cos => "Cosine (angle mode applies)"
  | tan => "Tangent (angle mode applies)"

namespace Function

def name : Function → Text
  | aggregate a => a.name
  | math f => f.name

def description : Function → String
  | aggregate a => a.description
  | math f => f.description

def arity : Function → Arity
  | aggregate .count => .zeroOrOne
  | aggregate .covariance | aggregate .populationCovariance | aggregate .correlation => .exactly 2
  | _ => .exactly 1

def isAggregate : Function → Bool
  | aggregate _ => true
  | math _ => false

/-- Every function, in the order in which they are listed. -/
def all : List Function := [
  aggregate .count, aggregate .list, aggregate .sum, aggregate .prod, aggregate .mean,
  aggregate .meanError, aggregate .harmonicMean, aggregate .geometricMean, aggregate .median,
  aggregate .min, aggregate .max, aggregate .variance, aggregate .populationVariance,
  aggregate .deviation, aggregate .populationDeviation, aggregate .covariance,
  aggregate .populationCovariance, aggregate .correlation, aggregate .span, math .abs, math .sqrt,
  math .exp, math .ln, math .log10, math .floor, math .ceil, math .round, math .sin, math .cos,
  math .tan]

/-- The function of this very name. -/
def named? (name : Text) : Option Function := all.find? fun f => f.name == name

/-- The function that a name stands for in a formula. -/
def lookup? (name : Text) : Option Function :=
  let lower := Text.asciiLower name
  match named? lower with
  | some f => some f
  | none =>
    match lower with
    | 'v' :: rest => (named? rest).filter isAggregate
    | _ => none

theorem mem_all (f : Function) : f ∈ all := by
  rcases f with a | f
  · cases a <;> simp [all]
  · cases f <;> simp [all]

end Function

end Rollup
