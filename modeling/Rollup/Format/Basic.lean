import Rollup.Format.Printf
import Rollup.Value.Cell

/-! # Cell formats

The format of a column is a run of one-letter flags, such as `f2` or `p6N`, and perhaps a printf
pattern at the end. What it leaves open is taken from the defaults.
-/

namespace Rollup

structure CellFormat where
  floatStyle : Option FloatStyle := none
  precision : Option Nat := none
  printf : Option Printf := none
  numbersOnly : Bool := false
  keepEmpty : Bool := false
  /-- The formula is shown as it is written. -/
  literal : Bool := false
  duration : DurationStyle := .clock
  angleMode : Option AngleMode := none
  fractions : Option Bool := none
deriving DecidableEq, Repr

namespace CellFormat

/-- How the format reads cells. -/
def cellMode (f : CellFormat) : CellMode := ⟨f.numbersOnly, f.keepEmpty⟩

def angles (f : CellFormat) (defaults : FormatDefaults) : AngleMode :=
  f.angleMode.getD defaults.angleMode

/-! ## Flags -/

/-- The most digits after the point that a style takes. -/
def maxDigits : Nat := 255

/-- The effect of a flag with a count. -/
def countFlag? : Char → Option (CellFormat → Nat → CellFormat)
  | 'f' => some fun f n => { f with floatStyle := some (.fixed (min n maxDigits)) }
  | 's' => some fun f n => { f with floatStyle := some (.scientific (min n maxDigits)) }
  | 'e' => some fun f n => { f with floatStyle := some (.engineering (min n maxDigits)) }
  | 'p' => some fun f n => { f with precision := some (max n 1) }
  | _ => none

def isAsciiBlank (c : Char) : Bool :=
  c = ' ' || c = '\t' || c = '\n' || c = '\x0c' || c = '\r'

/-- The effect of a flag that stands alone. Blanks have none. -/
def plainFlag? (c : Char) : Option (CellFormat → CellFormat) :=
  match c with
  | 'N' => some fun f => { f with numbersOnly := true }
  | 'E' => some fun f => { f with keepEmpty := true }
  | 'L' => some fun f => { f with literal := true }
  | 'T' => some fun f => { f with duration := .clock }
  | 'U' => some fun f => { f with duration := .hoursMinutes }
  | 't' => some fun f => { f with duration := .fractionalHours }
  | 'D' => some fun f => { f with angleMode := some .degrees }
  | 'R' => some fun f => { f with angleMode := some .radians }
  | 'F' => some fun f => { f with fractions := some true }
  | 'S' => some fun f => { f with fractions := some false }
  | c => if isAsciiBlank c then some id else none

/-- Applies the flags of a segment, from a byte offset on. A percent sign starts a pattern that
takes the rest of the segment. -/
def mergeFrom (f : CellFormat) (offset : Nat) : Text → Except (Fault FormatProblem) CellFormat
  | [] => .ok f
  | c :: t =>
    if c = '%' then (Printf.read offset (c :: t)).map fun p => { f with printf := some p }
    else
      match countFlag? c with
      | some apply =>
        let digits := t.takeWhile Char.isDigit
        match Text.toNatBelow? Text.countBound digits with
        | none => .error ⟨.needsDigits c, offset⟩
        | some n => mergeFrom (apply f n) (offset + 1 + digits.length) (t.drop digits.length)
      | none =>
        match plainFlag? c with
        | some apply => mergeFrom (apply f) (offset + 1) t
        | none => .error ⟨.unknownFlag c, offset⟩
termination_by t => t.length
decreasing_by
  all_goals simp only [List.length_cons, List.length_drop]; omega

/-- Applies the flags of a segment. -/
def merge (f : CellFormat) (segment : Text) : Except (Fault FormatProblem) CellFormat :=
  f.mergeFrom 0 segment

def read (segment : Text) : Except (Fault FormatProblem) CellFormat := merge {} segment

/-! ## Rendering -/

def notANumberText : Text := "#NAN!".toList

def infinityText : Text := "#INF!".toList

/-- Renders a number as a fraction, when that is asked for and it is close to one. -/
def fraction? (f : CellFormat) (defaults : FormatDefaults) (n : Float) : Option Text :=
  if f.fractions.getD defaults.preferFraction && !Number.isWhole n then
    (Fraction.of? n).map fun (h, k) => Text.ofInt h ++ '/' :: Text.ofInt k
  else none

section

variable {m : Type → Type} [Monad m] (w : Formatter m)

/-- Renders a number. The decimal logarithm is only used in engineering style. -/
def numberBy (log10 : Float → Float) (f : CellFormat) (defaults : FormatDefaults) (n : Float) :
    m Text :=
  if n.isNaN then pure notANumberText
  else if n.isInf then pure infinityText
  else
    match f.printf with
    | some p => p.renderBy w defaults.precision n
    | none =>
      match f.fraction? defaults n with
      | some t => pure t
      | none =>
        w.styled log10 (f.floatStyle.getD defaults.floatStyle)
          (max (f.precision.getD defaults.precision) 1) n

end

/-- Renders a number. It fails for more decimals than can be formatted. -/
def number? (f : CellFormat) (defaults : FormatDefaults) (n : Float) : Option Text :=
  f.numberBy .limited Float.log10 defaults n

/-- Renders a number, whatever its decimals. -/
def number (f : CellFormat) (defaults : FormatDefaults) (n : Float) : Text :=
  (f.numberBy .unlimited Float.log10 defaults n).run

/-- Renders a value, whatever the decimals of its numbers. -/
def value (f : CellFormat) (defaults : FormatDefaults) : Value → Text
  | .empty => []
  | .text t => t
  | .number n => f.number defaults n
  | .duration seconds =>
    match f.duration with
    | .clock => clockText true seconds
    | .hoursMinutes => clockText false seconds
    | .fractionalHours => f.number defaults (seconds / 3600)
  | .date stamp => stamp.print
  | .uncertain mean err =>
    f.number defaults mean ++ " +/- ".toList ++ f.number defaults err

end CellFormat

/-- The text of a value in the default format. -/
def Value.display (v : Value) : Text := CellFormat.value {} {} v

end Rollup
