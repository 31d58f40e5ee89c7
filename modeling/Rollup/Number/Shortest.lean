import Rollup.Number.Decimal

/-! # The shortest decimal that reads back

A decimal reads back as a double when it lies in the double's interval of rounding. The shortest
text has the fewest digits with which some decimal does, and of those the one nearest to the double;
a tie goes up.
-/

namespace Rollup.Number

/-- The numbers that round to a double, as quarters of the unit of its last place: from `low` to
`high` around `middle`, with both ends when `closed`. -/
structure Interval where
  low : Nat
  middle : Nat
  high : Nat
  unit : Int
  closed : Bool

/-- Below a power of two the doubles are twice as dense. -/
def Interval.of (b : Binary64) : Interval where
  low := 4 * b.mantissa - (if b.mantissa = Nat.pow 2 52 ∧ -1074 < b.exponent then 1 else 2)
  middle := 4 * b.mantissa
  high := 4 * b.mantissa + 2
  unit := b.exponent - 2
  closed := b.mantissa % 2 = 0

/-- Whether `digits * 10 ^ k` lies in the interval. -/
def Interval.mem (i : Interval) (digits : Nat) (k : Int) : Bool :=
  let scale := Nat.pow 10 (-k).toNat * Nat.pow 2 i.unit.toNat
  let value := digits * (Nat.pow 10 k.toNat * Nat.pow 2 (-i.unit).toNat)
  if i.closed then i.low * scale ≤ value && value ≤ i.high * scale
  else i.low * scale < value && value < i.high * scale

/-- The decimal with `count` digits that is nearest among those that read back. -/
def nearestWith? (b : Binary64) (count : Nat) : Option Scientific :=
  let i := Interval.of b
  let e := decimalExponent b.num b.den
  let k := e - (count - 1 : Nat)
  let (n, d) := shiftDecimal b.num b.den (-k)
  let down := n / d
  let up := down + 1
  let pick : Option Nat :=
    match i.mem down k, i.mem up k with
    | true, true => some (if 2 * (n % d) < d then down else up)
    | true, false => some down
    | false, true => some up
    | false, false => none
  pick.map fun digits =>
    if digits = Nat.pow 10 count then ⟨Nat.pow 10 (count - 1), count - 1, e + 1⟩
    else ⟨digits, count - 1, e⟩

/-- Seventeen digits always suffice. -/
def shortestDigits (b : Binary64) : Scientific :=
  if b.isZero then ⟨0, 0, 0⟩
  else
    ((List.range 17).findSome? fun n => nearestWith? b (n + 1)).getD
      (Scientific.round 16 b.num b.den)

/-- A number in scientific notation written out without an exponent. -/
def Scientific.positional (s : Scientific) : Text :=
  let k := s.exponent - s.places
  if 0 ≤ k then Text.ofNat (s.digits * Nat.pow 10 k.toNat) else withPoint (-k).toNat s.digits

/-- The shortest text that reads back, without an exponent. -/
def shortest (x : Float) : Text :=
  if x.isFinite then
    let b := Binary64.ofFloat x
    signText b.negative ++ (shortestDigits b).positional
  else nonFiniteText x

/-- The shortest text that reads back, in scientific notation. -/
def shortestScientific (x : Float) : Text :=
  if x.isFinite then
    let b := Binary64.ofFloat x
    let s := shortestDigits b
    signText b.negative ++ s.mantissa ++ 'e' :: Text.ofInt s.exponent
  else nonFiniteText x

end Rollup.Number
