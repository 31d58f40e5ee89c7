import Rollup.Number.Binary64

/-! # The order of doubles

Doubles are compared exactly, or with a tolerance under which the errors of a short computation do
not show.
-/

namespace Rollup.Number

/-- The smaller number, and a number rather than NaN. -/
def smaller (x y : Float) : Float := if x.isNaN then y else if y < x then y else x

/-- The larger number, and a number rather than NaN. -/
def larger (x y : Float) : Float := if x.isNaN then y else if x < y then y else x

/-- How two doubles are ordered. NaN has no place in the order. -/
def order? (x y : Float) : Option Ordering :=
  if x < y then some .lt else if x == y then some .eq else if y < x then some .gt else none

/-! ## With a tolerance -/

/-- The distance from 1 to the next double. -/
def tolerance : Float := 2.220446049250313e-16

/-- What a difference is measured by: the larger size, or 1 for numbers whose product vanishes. -/
def scale (x y : Float) : Float := if x * y == 0 then 1 else larger x.abs y.abs

/-- How two doubles are ordered when a difference within the tolerance does not count. The
difference of an infinite number has no measure, so that it has no place in the order. NaN has one
beside zero alone, where nothing is measured. -/
def roughOrder? (x y : Float) : Option Ordering :=
  if scale x y == 0 then some .eq
  else
    let difference := (x - y) / scale x y
    if difference < -tolerance then some .lt
    else if tolerance < difference then some .gt
    else if difference.isNaN then none
    else some .eq

end Rollup.Number
