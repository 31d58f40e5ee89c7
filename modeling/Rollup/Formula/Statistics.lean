import Rollup.Formula.Function
import Rollup.Number.Order
import Rollup.Value.Operator

/-! # Reducing sequences

Sums and products combine the values one by one. The other reductions work on numbers and then go
back to the unit that all values share. Values that are no numbers leave the call written out.
-/

namespace Rollup

namespace Statistics

/-! ## Numbers -/

/-- The sum, from the left. The empty sum is negative zero, which adds nothing to any number. -/
def sum (xs : List Float) : Float := xs.foldl (· + ·) (-0.0)

def mean (xs : List Float) : Float := sum xs / Float.ofNat xs.length

/-- The sum of the squared distances from the mean. -/
def squaredDeviations (xs : List Float) : Float :=
  let m := mean xs
  sum (xs.map fun x => (x - m) * (x - m))

/-- The variance of a sample; that of a single number is 0. -/
def sampleVariance (xs : List Float) : Float :=
  if xs.length < 2 then 0 else squaredDeviations xs / Float.ofNat (xs.length - 1)

def populationVariance (xs : List Float) : Float := squaredDeviations xs / Float.ofNat xs.length

def infinity : Float := 1.0 / 0.0

def minimum (xs : List Float) : Float := xs.foldl Number.smaller infinity

def maximum (xs : List Float) : Float := xs.foldl Number.larger (-infinity)

/-- Puts a number into a descending list, in front of the first one that is not larger. -/
def insertDescending (x : Float) : List Float → List Float
  | [] => [x]
  | y :: ys => if x < y then y :: insertDescending x ys else x :: y :: ys

/-- Ascending, by insertion one by one. Numbers that do not compare keep their places. -/
def sorted (xs : List Float) : List Float :=
  (xs.foldl (fun ys x => insertDescending x ys) []).reverse

/-- The middle one of numbers in order, or the mean of the two middle ones. -/
def middle (ys : List Float) : Float :=
  let middle := ys.length / 2
  let upper := ys.getD middle 0
  if ys.length % 2 = 1 then upper else (ys.getD (middle - 1) 0 + upper) / 2

def median (xs : List Float) : Float := middle (sorted xs)

def harmonicMean (xs : List Float) : Float :=
  Float.ofNat xs.length / sum (xs.map fun x => 1 / x)

/-- The geometric mean, which negative numbers do not have. -/
def geometricMean (xs : List Float) : Float :=
  if xs.any (· < 0) then Value.notANumber
  else (sum (xs.map Float.log) / Float.ofNat xs.length).exp

/-- The sum of the products of the distances from the means. -/
def crossDeviations (xs ys : List Float) : Float :=
  let mx := mean xs
  let my := mean ys
  sum (List.zipWith (fun x y => (x - mx) * (y - my)) xs ys)

/-! ## Units -/

/-- What the numbers of a sequence measure. -/
inductive Measure where
  | number
  | date
  | duration
deriving DecidableEq, Repr

def Measure.of : Value → Measure
  | .date _ => date
  | .duration _ => duration
  | _ => number

/-- A number in the unit it was measured in. -/
def Measure.value : Measure → Float → Value
  | number, n => .number n
  | date, n => .ofDays n
  | duration, n => .duration n

/-- A distance between measured numbers. -/
def Measure.distance : Measure → Float → Value
  | duration, n => .duration n
  | _, n => .number n

/-- The measure that all values share, else plain numbers. -/
def sharedMeasure : List Value → Measure
  | [] => .number
  | v :: vs => if vs.all (Measure.of · = Measure.of v) then Measure.of v else .number

/-- The numbers of a sequence and their shared measure, if every value has a number. -/
def numeric? (vs : List Value) : Option (List Float × Measure) :=
  (vs.mapM Value.toFloat?).map fun xs => (xs, sharedMeasure vs)

end Statistics

namespace Aggregate

open Statistics

def commaSeparated (ts : List Text) : Text := Text.joinWith [',', ' '] ts

/-- The call, written out with its values. -/
def written (a : Aggregate) (vs : List Value) : Value :=
  .text (a.name ++ '(' :: commaSeparated (vs.map Value.operandText) ++ [')'])

/-- Combines the values from the left; `start` is the result for none. -/
def fold (op : Operator) (start : Float) : List Value → Value
  | [] => .number start
  | v :: vs => vs.foldl (Value.combine op) v

section

variable {m : Type → Type} [Monad m] (sort : List Float → m (List Float))

/-- Reduces one or more numbers that share a measure. Only the median sorts them. -/
def reduceNumbersBy (a : Aggregate) (xs : List Float) (u : Measure) : m (Option Value) :=
  match a with
  | mean => pure (some (u.value (Statistics.mean xs)))
  | meanError =>
    pure (some (.uncertain (Statistics.mean xs) (sampleVariance xs / Float.ofNat xs.length).sqrt))
  | harmonicMean => pure (some (.number (Statistics.harmonicMean xs)))
  | geometricMean => pure (some (.number (Statistics.geometricMean xs)))
  | median => do return some (u.value (middle (← sort xs)))
  | min => pure (some (u.value (minimum xs)))
  | max => pure (some (u.value (maximum xs)))
  | span => pure (some (u.distance (maximum xs - minimum xs)))
  | variance => pure (some (.number (sampleVariance xs)))
  | populationVariance => pure (some (.number (Statistics.populationVariance xs)))
  | deviation => pure (some (u.distance (sampleVariance xs).sqrt))
  | populationDeviation => pure (some (u.distance (Statistics.populationVariance xs).sqrt))
  | count | list | sum | prod | covariance | populationCovariance | correlation => pure none

/-- Reduces a sequence. Empty values do not count. -/
def reduceBy (a : Aggregate) (values : List Value) : m Value :=
  let vs := values.filter (! ·.isEmpty)
  match a with
  | count => pure (.number (Float.ofNat vs.length))
  | list => pure (.text (commaSeparated (vs.map Value.display)))
  | sum => pure (fold .add 0 vs)
  | prod => pure (fold .mul 1 vs)
  | a =>
    if vs.isEmpty then pure .empty
    else
      match numeric? vs with
      | none => pure (a.written vs)
      | some (xs, u) => do return (← a.reduceNumbersBy sort xs u).getD (a.written vs)

end

def reduceNumbers (a : Aggregate) (xs : List Float) (u : Measure) : Option Value :=
  (a.reduceNumbersBy (fun xs => (pure (sorted xs) : Id _)) xs u).run

/-- Reduces a sequence, with a sort that never fails. -/
def reduce (a : Aggregate) (values : List Value) : Value :=
  (a.reduceBy (fun xs => (pure (sorted xs) : Id _)) values).run

theorem reduce_def (a : Aggregate) (values : List Value) : a.reduce values =
    let vs := values.filter (! ·.isEmpty)
    match a with
    | count => .number (Float.ofNat vs.length)
    | list => .text (commaSeparated (vs.map Value.display))
    | sum => fold .add 0 vs
    | prod => fold .mul 1 vs
    | a =>
      if vs.isEmpty then .empty
      else
        match numeric? vs with
        | none => a.written vs
        | some (xs, u) => (a.reduceNumbers xs u).getD (a.written vs) := by
  cases a <;> rfl

/-- The call on two sequences, written out. -/
def writtenPair (a : Aggregate) (xs ys : List Value) : Value :=
  let listed (vs : List Value) := '[' :: commaSeparated (vs.map Value.display) ++ [']']
  .text (a.name ++ '(' :: listed xs ++ [',', ' '] ++ listed ys ++ [')'])

/-- A statistic of paired numbers, at least one pair. -/
def reducePairs (a : Aggregate) (xs ys : List Float) : Option Float :=
  let n := Float.ofNat xs.length
  let cross := crossDeviations xs ys
  match a with
  | covariance => some (if xs.length < 2 then 0 else cross / (n - 1))
  | populationCovariance => some (cross / n)
  | correlation =>
    let sx := (Statistics.populationVariance xs).sqrt
    let sy := (Statistics.populationVariance ys).sqrt
    some (cross / n / (sx * sy))
  | _ => none

/-- Reduces two sequences of the same length. -/
def reducePair (a : Aggregate) (xs ys : List Value) : Value :=
  if xs.length ≠ ys.length ∨ xs = [] then a.writtenPair xs ys
  else
    match numeric? xs, numeric? ys with
    | some (fx, _), some (fy, _) => ((a.reducePairs fx fy).map .number).getD (a.writtenPair xs ys)
    | _, _ => a.writtenPair xs ys

end Aggregate

namespace MathFunction

/-- An angle in radians. -/
def radians : AngleMode → Float → Float
  | .degrees, x => x * 0.017453292519943295
  | .radians, x => x

def apply (f : MathFunction) (angles : AngleMode) (n : Float) : Float :=
  match f with
  | abs => n.abs
  | sqrt => n.sqrt
  | exp => n.exp
  | ln => n.log
  | log10 => n.log10
  | floor => Number.floor n
  | ceil => Number.ceil n
  | round => Number.round n
  | sin => (radians angles n).sin
  | cos => (radians angles n).cos
  | tan => (radians angles n).tan

/-- Whether a duration stays one. -/
def keepsDuration : MathFunction → Bool
  | abs | round | floor | ceil => true
  | _ => false

def applyTo (f : MathFunction) (angles : AngleMode) : Value → Value
  | .number n => .number (f.apply angles n)
  | .empty => .empty
  | v@(.duration s) =>
    if f.keepsDuration then .duration (f.apply angles s)
    else .text (f.name ++ '(' :: v.display ++ [')'])
  | v => .text (f.name ++ '(' :: v.display ++ [')'])

end MathFunction

end Rollup
