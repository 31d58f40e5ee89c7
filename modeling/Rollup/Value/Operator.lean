import Rollup.Format.Basic

/-! # Arithmetic on values

Kinds that do not combine give no error: the operation is kept as a text, written out with its
operands.
-/

namespace Rollup

inductive Operator where
  | add
  | sub
  | mul
  | div
  | pow
deriving DecidableEq, Repr

namespace Operator

def symbol : Operator → Char
  | add => '+'
  | sub => '-'
  | mul => '*'
  | div => '/'
  | pow => '^'

def apply : Operator → Float → Float → Float
  | add, a, b => a + b
  | sub, a, b => a - b
  | mul, a, b => a * b
  | div, a, b => a / b
  | pow, a, b => a.pow b

end Operator

namespace Value

/-- A value as an operand of a written operation. A text with a blank is put in parentheses. -/
def operandText (v : Value) : Text :=
  let t := v.display
  if Text.contains ' ' t then '(' :: t ++ [')'] else t

/-- The operation, written out. -/
def written (op : Operator) (a b : Value) : Value :=
  text (a.operandText ++ [' ', op.symbol, ' '] ++ b.operandText)

/-- A date moved by a number of seconds, or `failing` when that leaves the calendar. -/
def shiftDate (failing : Value) (stamp : Timestamp) (seconds : Float) (withTime : Bool) : Value :=
  match stamp.moment.shiftSeconds? seconds with
  | some m => date ⟨m, withTime || !m.isMidnight⟩
  | none => failing

def negate : Value → Value
  | empty => empty
  | number n => number (-n)
  | duration s => duration (-s)
  | uncertain mean err => uncertain (-mean) err
  | v@(date _) => text ('-' :: v.operandText)
  | v@(text _) => text ('-' :: v.operandText)

/-- Combines two values. Days added to a date may bring a time of day, durations always do. -/
def combine (op : Operator) (a b : Value) : Value :=
  match op, a, b with
  | _, empty, _ => empty
  | _, _, empty => empty
  | op, text _, _ => written op a b
  | op, _, text _ => written op a b
  | op, number x, number y => number (op.apply x y)
  | .sub, date s, date t => number (s.moment.toDays - t.moment.toDays)
  | .add, date s, number days =>
    shiftDate (written op a b) s (days * Moment.secondsPerDay) s.withTime
  | .add, number days, date s =>
    shiftDate (written op a b) s (days * Moment.secondsPerDay) s.withTime
  | .sub, date s, number days =>
    shiftDate (written op a b) s (-days * Moment.secondsPerDay) s.withTime
  | .add, date s, duration x => shiftDate (written op a b) s x true
  | .add, duration x, date s => shiftDate (written op a b) s x true
  | .sub, date s, duration x => shiftDate (written op a b) s (-x) true
  | .add, duration x, duration y => duration (x + y)
  | .sub, duration x, duration y => duration (x - y)
  | .mul, duration x, number y => duration (x * y)
  | .mul, number y, duration x => duration (x * y)
  | .div, duration x, number y => duration (x / y)
  | .div, duration x, duration y => number (x / y)
  | .add, uncertain mean err, number y => uncertain (mean + y) err
  | .sub, uncertain mean err, number y => uncertain (mean - y) err
  | .add, number y, uncertain mean err => uncertain (y + mean) err
  | .sub, number y, uncertain mean err => uncertain (y - mean) err
  | .mul, uncertain mean err, number y => uncertain (mean * y) (err * y.abs)
  | .mul, number y, uncertain mean err => uncertain (mean * y) (err * y.abs)
  | .div, uncertain mean err, number y => uncertain (mean / y) (err / y.abs)
  | _, _, _ => written op a b

end Value

end Rollup
