import Rollup.Number.Rounding
import Rollup.Number.Word

/-! # Numbers as fractions

The convergents of the continued fraction of a number, up to the first that is close enough, as long
as the denominators stay small.
-/

namespace Rollup.Fraction

def maxDenominator : Int := 1000

/-- Partial quotients beyond this size end the search. -/
def maxQuotient : Float := Float.ofNat (Nat.pow 2 62)

/-- Two successive convergents, `h₀ / k₀` and `h₁ / k₁`. -/
structure Convergents where
  h₀ : Int
  h₁ : Int
  k₀ : Int
  k₁ : Int
deriving DecidableEq, Repr

def Convergents.start : Convergents := ⟨0, 1, 1, 0⟩

/-- The next convergent for the partial quotient `a`, as long as the products and sums are words. -/
def Convergents.next? (c : Convergents) (a : Int) : Option Convergents := do
  let h ← (← Word.ofInt? (a * c.h₁)) + c.h₀ |> Word.ofInt?
  let k ← (← Word.ofInt? (a * c.k₁)) + c.k₀ |> Word.ofInt?
  some ⟨c.h₁, h, c.k₁, k⟩

/-- Whether a fraction is as good as the number `n`. -/
def isClose (n : Float) (h k : Int) : Bool :=
  let size := if n.abs < 1 then 1 else n.abs
  (Float.ofInt h / Float.ofInt k - n).abs ≤ 1e-12 * size

/-- Looks for a close convergent of `n`, with `x` the part of the expansion still to come. -/
def search (n : Float) : (steps : Nat) → (x : Float) → Convergents → Option (Int × Int)
  | 0, _, _ => none
  | steps + 1, x, c => do
    let a := Number.floor x
    if a.abs > maxQuotient || !a.isFinite then none
    let c ← c.next? (Number.toInt a)
    if maxDenominator < c.k₁ then none
    if isClose n c.h₁ c.k₁ then some (c.h₁, c.k₁)
    else
      let rest := x - a
      if rest == 0 then none else search n steps (1 / rest) c

/-- Numerator and denominator of a finite number that is close to a fraction. -/
def of? (n : Float) : Option (Int × Int) := search n 32 n Convergents.start

end Rollup.Fraction
