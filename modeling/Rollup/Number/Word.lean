/-! # Whole numbers of 64 bits -/

namespace Rollup.Word

/-- One more than the largest word. The least one is this with a minus. -/
def bound : Nat := Nat.pow 2 63

/-- Whether a whole number is a word. -/
def fits (n : Int) : Bool := -(bound : Int) ≤ n && n < bound

/-- The number itself, when it is a word. -/
def ofInt? (n : Int) : Option Int := if fits n then some n else none

end Rollup.Word
