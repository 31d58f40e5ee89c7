/-! # Finite doubles as exact fractions

A finite double is a whole number times a power of two. Everything that prints or rounds a double
works on this exact value.
-/

namespace Rollup

/-- A finite double. Its size is `mantissa * 2 ^ exponent`. -/
structure Binary64 where
  negative : Bool
  mantissa : Nat
  exponent : Int
deriving DecidableEq, Repr

namespace Binary64

/-- Takes a double apart. The exponent field 0 marks the subnormal ones, which lack the leading bit.
-/
def ofFloat (x : Float) : Binary64 :=
  let bits := x.toBits.toNat
  let fraction := bits % Nat.pow 2 52
  let field : Nat := bits / Nat.pow 2 52 % Nat.pow 2 11
  let negative := Nat.pow 2 63 ≤ bits
  if field = 0 then ⟨negative, fraction, -1074⟩
  else ⟨negative, fraction + Nat.pow 2 52, (field : Int) - 1075⟩

/-- The numerator of the size. -/
def num (b : Binary64) : Nat := b.mantissa * Nat.pow 2 b.exponent.toNat

/-- The denominator of the size, a power of two. -/
def den (b : Binary64) : Nat := Nat.pow 2 (-b.exponent).toNat

theorem den_pos (b : Binary64) : 0 < b.den := Nat.two_pow_pos _

def isWhole (b : Binary64) : Bool := b.num % b.den = 0

def isZero (b : Binary64) : Bool := b.mantissa = 0

def signed (b : Binary64) (n : Nat) : Int := if b.negative then -(n : Int) else n

/-! ## Neighbouring whole numbers -/

/-- The whole part of the size. -/
def wholePart (b : Binary64) : Nat := b.num / b.den

/-- The whole number nearest to the size; a half goes up. -/
def nearestWhole (b : Binary64) : Nat := (2 * b.num + b.den) / (2 * b.den)

def truncate (b : Binary64) : Int := b.signed b.wholePart

def floor (b : Binary64) : Int := (b.signed b.num).fdiv b.den

def ceil (b : Binary64) : Int := -((-b.signed b.num).fdiv b.den)

/-- The nearest whole number; a half goes away from zero. -/
def round (b : Binary64) : Int := b.signed b.nearestWhole

end Binary64

end Rollup
