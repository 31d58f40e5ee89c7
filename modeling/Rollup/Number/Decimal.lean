import Rollup.Text.Basic
import Rollup.Number.Binary64

/-! # Decimal texts of doubles

Fixed and scientific notation round the exact value of the double, and a tie goes to the even
neighbour.
-/

namespace Rollup.Number

/-- The quotient rounded to the nearest whole number; a tie goes to the even one. -/
def roundDiv (num den : Nat) : Nat :=
  let q := num / den
  let r := num % den
  if 2 * r < den then q else if den < 2 * r then q + 1 else q + q % 2

/-- The digits of `n` with a point before the last `places` of them. -/
def withPoint (places n : Nat) : Text :=
  let digits := Text.ofNatPadded (places + 1) n
  if places = 0 then digits
  else
    let whole := digits.length - places
    digits.take whole ++ '.' :: digits.drop whole

/-- The exponent `e` with `10 ^ e ≤ num / den < 10 ^ (e + 1)`, for a positive fraction. -/
def decimalExponent (num den : Nat) : Int :=
  if den ≤ num then ((Text.ofNat (num / den)).length : Int) - 1
  else -((Text.ofNat ((den + num - 1) / num - 1)).length : Int)

/-- `num / den * 10 ^ k`, as a numerator and a denominator. -/
def shiftDecimal (num den : Nat) (k : Int) : Nat × Nat :=
  (num * Nat.pow 10 k.toNat, den * Nat.pow 10 (-k).toNat)

/-- A number in scientific notation, `digits * 10 ^ (exponent - places)`, with `places + 1` digits.
-/
structure Scientific where
  digits : Nat
  places : Nat
  exponent : Int
deriving DecidableEq, Repr

/-- The fraction rounded to `places` decimals of its scientific notation. -/
def Scientific.round (places num den : Nat) : Scientific :=
  if num = 0 then ⟨0, places, 0⟩
  else
    let e := decimalExponent num den
    let (n, d) := shiftDecimal num den (places - e)
    let digits := roundDiv n d
    if digits = Nat.pow 10 (places + 1) then ⟨Nat.pow 10 places, places, e + 1⟩
    else ⟨digits, places, e⟩

def Scientific.mantissa (s : Scientific) : Text := withPoint s.places s.digits

/-! ## Texts of any double -/

def signText (negative : Bool) : Text := if negative then ['-'] else []

/-- The texts of the doubles that are no numbers or infinite. -/
def nonFiniteText (x : Float) : Text :=
  if x.isNaN then "NaN".toList else signText ((Binary64.ofFloat x).negative) ++ "inf".toList

/-- Fixed notation with `places` decimals. -/
def fixed (places : Nat) (x : Float) : Text :=
  if x.isFinite then
    let b := Binary64.ofFloat x
    signText b.negative ++ withPoint places (roundDiv (b.num * Nat.pow 10 places) b.den)
  else nonFiniteText x

/-- The mantissa with its sign, and the exponent, of scientific notation with `places` decimals. -/
def scientificParts (places : Nat) (x : Float) : Text × Int :=
  if x.isFinite then
    let b := Binary64.ofFloat x
    let s := Scientific.round places b.num b.den
    (signText b.negative ++ s.mantissa, s.exponent)
  else (nonFiniteText x, 0)

/-- Scientific notation with `places` decimals, such as `1.50e3`. -/
def scientific (places : Nat) (x : Float) : Text :=
  if x.isFinite then
    let (mantissa, exponent) := scientificParts places x
    mantissa ++ 'e' :: Text.ofInt exponent
  else nonFiniteText x

/-- Without zeros at the end of the fraction, and without a point that nothing follows. -/
def trimZeros (t : Text) : Text :=
  if Text.contains '.' t then
    ((t.reverse.dropWhile (· == '0')).dropWhile (· == '.')).reverse
  else t

end Rollup.Number
