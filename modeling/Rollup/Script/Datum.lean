import Rollup.Script.Token
import Rollup.Number.Order
import Rollup.Number.Rounding
import Rollup.Number.Shortest
import Rollup.Text.Case

/-! # What scripts compute with

Whole numbers are words. They stay whole among themselves and become doubles beside one. An
operation that is not defined, or whose whole result is no word, gives nothing.
-/

namespace Rollup.Script

inductive Datum where
  | int (n : Int)
  | float (x : Float)
  | text (t : Text)
  | bool (b : Bool)
  | list (ds : List Datum)

inductive Comparison where
  /-- They are of different types, or different lists. -/
  | unlike
  /-- They are numbers with no place in the order. They are neither equal nor different. -/
  | undefined
  | ordered (o : Ordering)

namespace Comparison

/-- The finding on two numbers, from how they are ordered. -/
def ofNumbers : Option Ordering → Comparison
  | some o => ordered o
  | none => undefined

/-- Whether the data are ordered in one of the given ways. -/
def finds (wanted : List Ordering) : Comparison → Bool
  | ordered o => wanted.contains o
  | _ => false

def findsDifference : Comparison → Bool
  | unlike => true
  | undefined => false
  | ordered o => o != .eq

end Comparison

namespace Datum

def bool? : Datum → Option Bool
  | bool b => some b
  | _ => none

/-! ## Text -/

/-- Beyond this size doubles are written with an exponent. It is 10^13 in single precision. -/
def largestPlain : Float := 9999999827968

/-- Below this size doubles are written with an exponent. It is 10^-13 in single precision. -/
def smallestPlain : Float := 9.9999998245167e-14

/-- The shortest text that reads back, with a point. -/
def floatText (x : Float) : Text :=
  if x == 0 then "0.0".toList
  else if x.abs > largestPlain || x.abs < smallestPlain then Number.shortestScientific x
  else Number.shortest x ++ (if Number.isWhole x then ".0".toList else [])

def textOf? : Datum → Option Text
  | int n => some (Text.ofInt n)
  | float x => some (floatText x)
  | text t => some t
  | bool b => some (if b then "true".toList else "false".toList)
  | list _ => none

/-- Cuts every occurrence of `part` out of a text, from left to right. -/
def without (part t : Text) : Text :=
  match t with
  | [] => []
  | c :: t =>
    if part ≠ [] ∧ part.isPrefixOf (c :: t) then without part (t.drop (part.length - 1))
    else c :: without part t
termination_by t.length
decreasing_by
  all_goals simp only [List.length_cons, List.length_drop]; omega

def occurs (part : Text) : Text → Bool
  | [] => part.isEmpty
  | c :: t => part.isPrefixOf (c :: t) || occurs part t

/-! ## Arithmetic -/

/-- One more than the largest exponent. -/
def exponentBound : Nat := Nat.pow 2 32

/-- A power of whole numbers. From the exponent 64 on only -1, 0 and 1 have powers that are words,
and those hang on the parity of the exponent. -/
def wholePower? (m n : Int) : Option Int :=
  if n < 0 ∨ exponentBound ≤ n then none
  else Word.ofInt? (Int.pow m (if 64 ≤ n then 64 + n.toNat % 2 else n.toNat))

/-- Applies a whole operation to whole numbers, and a real one when either number is a double. -/
def arithmetic? (whole : Int → Int → Option Int) (real : Float → Float → Float) :
    Datum → Datum → Option Datum
  | int m, int n => (whole m n).map int
  | float x, float y => some (float (real x y))
  | int m, float y => some (float (real (Float.ofInt m) y))
  | float x, int n => some (float (real x (Float.ofInt n)))
  | _, _ => none

/-- Adds numbers, and joins a text with anything that has a text. -/
def add? (a b : Datum) : Option Datum :=
  match a, b with
  | text s, b => b.textOf?.map fun t => text (s ++ t)
  | a, text t => a.textOf?.map fun s => text (s ++ t)
  | a, b => arithmetic? (fun m n => Word.ofInt? (m + n)) (· + ·) a b

/-- Subtracts numbers, and cuts a text out of another one. -/
def sub? (a b : Datum) : Option Datum :=
  match a, b with
  | text s, text t => some (text (without t s))
  | a, b => arithmetic? (fun m n => Word.ofInt? (m - n)) (· - ·) a b

def mul? : Datum → Datum → Option Datum := arithmetic? (fun m n => Word.ofInt? (m * n)) (· * ·)

/-- Division of whole numbers truncates. -/
def div? : Datum → Datum → Option Datum :=
  arithmetic? (fun m n => if n = 0 then none else Word.ofInt? (m.tdiv n)) (· / ·)

/-- The remainder has the sign of the dividend. It exists when the quotient fits. -/
def mod? : Datum → Datum → Option Datum :=
  arithmetic?
    (fun m n => if n = 0 ∨ !Word.fits (m.tdiv n) then none else some (m.tmod n)) Number.remainder

def pow? : Datum → Datum → Option Datum := arithmetic? wholePower? Float.pow

def neg? : Datum → Option Datum
  | int n => (Word.ofInt? (-n)).map int
  | float x => some (float (-x))
  | _ => none

def abs? : Datum → Option Datum
  | int n => (Word.ofInt? n.natAbs).map int
  | float x => some (float x.abs)
  | _ => none

/-! ## Comparison -/

mutual

/-- Compares two data, numbers with a tolerance unless both are whole. -/
def compare : Datum → Datum → Comparison
  | list ds, list es => if sameAll ds es then .ordered .eq else .unlike
  | int m, int n => .ordered (Ord.compare m n)
  | float x, float y => .ofNumbers (Number.roughOrder? x y)
  | int m, float y => .ofNumbers (Number.roughOrder? (Float.ofInt m) y)
  | float x, int n => .ofNumbers (Number.roughOrder? x (Float.ofInt n))
  | text s, text t => .ordered (Text.compare s t)
  | bool a, bool b => .ordered (Ord.compare a b)
  | _, _ => .unlike

def sameAll : List Datum → List Datum → Bool
  | [], [] => true
  | d :: ds, e :: es => (compare d e).finds [.eq] && sameAll ds es
  | _, _ => false

end

def same (a b : Datum) : Bool := (compare a b).finds [.eq]

/-- Whether two data are ordered in one of the given ways. Lists have no order. -/
def ordered? (wanted : List Ordering) : Datum → Datum → Option Datum
  | list _, list _ => none
  | a, b => some (bool ((compare a b).finds wanted))

def contains? (whole part : Datum) : Option Datum :=
  match whole, part with
  | list ds, d => some (bool (ds.any (same d)))
  | text t, text s => some (bool (occurs s t))
  | _, _ => none

/-! ## Elements and functions -/

/-- Negative indices count from the end. -/
def at? {α : Type} (xs : List α) (i : Int) : Option α :=
  if 0 ≤ i then xs[i.toNat]?
  else if i.natAbs ≤ xs.length then xs[xs.length - i.natAbs]?
  else none

def element? : Datum → Datum → Option Datum
  | list ds, int i => at? ds i
  | text t, int i => (at? t i).map fun c => text [c]
  | _, _ => none

def length? : Datum → Option Datum
  | text t => some (int t.length)
  | list ds => some (int ds.length)
  | _ => none

def isEmpty? : Datum → Option Datum
  | text t => some (bool t.isEmpty)
  | list ds => some (bool ds.isEmpty)
  | _ => none

def onTexts? (f : Text → Text → Bool) : Datum → Datum → Option Datum
  | text s, text t => some (bool (f s t))
  | _, _ => none

def onText? (f : Text → Text) : Datum → Option Datum
  | text t => some (text (f t))
  | _ => none

def call1? (name : Text) (d : Datum) : Option Datum :=
  if name = "len".toList then length? d
  else if name = "is_empty".toList then isEmpty? d
  else if name = "to_upper".toList then onText? Text.upper d
  else if name = "to_lower".toList then onText? Text.lower d
  else if name = "abs".toList then abs? d
  else none

def call2? (name : Text) (d e : Datum) : Option Datum :=
  if name = "contains".toList then contains? d e
  else if name = "starts_with".toList then onTexts? (fun t s => s.isPrefixOf t) d e
  else if name = "ends_with".toList then onTexts? (fun t s => s.isSuffixOf t) d e
  else none

def call? (name : Text) : List Datum → Option Datum
  | [d] => call1? name d
  | [d, e] => call2? name d e
  | _ => none

def property? (name : Text) (d : Datum) : Option Datum :=
  if name = "len".toList then length? d
  else if name = "is_empty".toList then isEmpty? d
  else none

end Datum

end Rollup.Script
