import Rollup.Number.Binary64

/-! # Rounding doubles to whole numbers -/

namespace Rollup.Number

/-- Whether the sign bit is set, as it is in negative zero. -/
def isNegative (x : Float) : Bool := (Binary64.ofFloat x).negative

/-- A whole number as a double. Zero takes the given sign. -/
def ofWhole (negative : Bool) (n : Int) : Float :=
  if n = 0 ∧ negative then -0.0 else Float.ofInt n

/-- Rounds with `f`. Whole numbers, infinities and NaN stay as they are. -/
def roundWith (f : Binary64 → Int) (x : Float) : Float :=
  let b := Binary64.ofFloat x
  if x.isFinite && !b.isWhole then ofWhole b.negative (f b) else x

def floor (x : Float) : Float := roundWith Binary64.floor x

def ceil (x : Float) : Float := roundWith Binary64.ceil x

/-- The nearest whole number; a half goes away from zero. -/
def round (x : Float) : Float := roundWith Binary64.round x

/-- Whether a finite number has no fractional part. -/
def isWhole (x : Float) : Bool := x.isFinite && (Binary64.ofFloat x).isWhole

/-- The whole number that a whole double is. -/
def toInt (x : Float) : Int := (Binary64.ofFloat x).truncate

/-- The largest value of a counter. -/
def counterMax : Nat := Nat.pow 2 64 - 1

/-- The size of `x` rounded to a whole number, a half up, as a counter: sizes beyond the largest
counter become it, NaN becomes 0. -/
def roundedSize (x : Float) : Nat :=
  if x.isNaN then 0
  else if x.isFinite then min (Binary64.ofFloat x).nearestWhole counterMax
  else counterMax

/-- `base ^ k` times `r`, by repeated squaring. -/
def powerLoop (r base : Float) (k : Nat) : Float :=
  if k = 0 then r
  else powerLoop (if k % 2 = 1 then r * base else r) (base * base) (k / 2)
termination_by k
decreasing_by omega

/-- A power of ten, as the product of repeated squares; a negative one is the quotient of 1. -/
def powerOfTen (k : Int) : Float :=
  let r := powerLoop 1 10 k.natAbs
  if k < 0 then 1 / r else r

/-- The remainder of a division that truncates, exactly; it has the sign of `x`. -/
def remainder (x y : Float) : Float :=
  let a := Binary64.ofFloat x
  let b := Binary64.ofFloat y
  if x.isNaN || y.isNaN || x.isInf || (y.isFinite && b.isZero) then 0.0 / 0.0
  else if y.isInf then x
  else
    let unit := min a.exponent b.exponent
    let m := a.mantissa * Nat.pow 2 (a.exponent - unit).toNat %
      (b.mantissa * Nat.pow 2 (b.exponent - unit).toNat)
    let r := (Float.ofNat m).scaleB unit
    if a.negative then -r else r

end Rollup.Number
