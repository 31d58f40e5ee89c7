import Rollup.Text.Basic
import Rollup.Number.Binary64

/-! # Reading decimal numerals

A numeral is digits with at most one point and an optional exponent; at least one digit stands on
either side of the point. The value is the double nearest to it.
-/

namespace Rollup

/-- The parts of an unsigned decimal numeral. -/
structure Numeral where
  whole : Text
  fraction : Text
  exponent : Int
deriving DecidableEq, Repr

namespace Number

/-- The double nearest to `m * 10 ^ e`. Beyond these sizes every number is infinite or zero. -/
def ofDecimal (m : Nat) (e : Int) : Float :=
  let size : Int := (Text.ofNat m).length + e
  if m = 0 ∨ size < -330 then 0.0
  else if 330 < size then 1.0 / 0.0
  else if 0 ≤ e then OfScientific.ofScientific m false e.toNat
  else OfScientific.ofScientific m true (-e).toNat

end Number

namespace Numeral

/-- The exponent at the start of a text, and the number of characters it takes: a letter `e`, an
optional sign and at least one digit. -/
def scanExponent : Text → Int × Nat
  | c :: t =>
    if c = 'e' ∨ c = 'E' then
      match t with
      | '+' :: u => digits u 2 1
      | '-' :: u => digits u 2 (-1)
      | u => digits u 1 1
    else (0, 0)
  | [] => (0, 0)
where
  digits (u : Text) (before : Nat) (sign : Int) : Int × Nat :=
    let ds := u.takeWhile Char.isDigit
    if ds = [] then (0, 0) else (sign * Text.digitsToNat ds, before + ds.length)

/-- The point and the digits after it, at the start of a text. -/
def scanFraction : Text → Text × Nat
  | '.' :: t => let ds := t.takeWhile Char.isDigit; (ds, ds.length + 1)
  | _ => ([], 0)

/-- The longest numeral at the start of a text, and the number of characters it takes. -/
def scan (t : Text) : Numeral × Nat :=
  let whole := t.takeWhile Char.isDigit
  let (fraction, n) := scanFraction (t.drop whole.length)
  let (exponent, k) := scanExponent (t.drop (whole.length + n))
  (⟨whole, fraction, exponent⟩, whole.length + n + k)

/-- The value, when there is a digit before or after the point. -/
def value? (n : Numeral) : Option Float :=
  if n.whole = [] ∧ n.fraction = [] then none
  else
    some (Number.ofDecimal (Text.digitsToNat (n.whole ++ n.fraction))
      (n.exponent - n.fraction.length))

/-- Reads a text that is a numeral as a whole. -/
def read? (t : Text) : Option Float :=
  let (n, used) := scan t
  if used = t.length then n.value? else none

end Numeral

/-- Reads a decimal numeral with an optional sign. Words such as `inf` are no numbers. -/
def Number.read? : Text → Option Float
  | '-' :: t => (Numeral.read? t).map (- ·)
  | '+' :: t => Numeral.read? t
  | t => Numeral.read? t

end Rollup
