import Rollup.Number.Decimal
import Rollup.Number.Rounding
import Rollup.Format.Fraction

/-! # Number styles

How many decimals a text takes hangs on the number, and formatting fails for too many of them. So the
styles are written over what formats the decimals, which may fail or not.
-/

namespace Rollup

inductive AngleMode where
  | degrees
  | radians
deriving DecidableEq, Repr

/-- The notation of numbers. The payload is the number of digits after the point. -/
inductive FloatStyle where
  | normal
  | fixed (digits : Nat)
  | scientific (digits : Nat)
  | engineering (digits : Nat)
deriving DecidableEq, Repr

inductive DurationStyle where
  /-- `hh:mm:ss` -/
  | clock
  /-- `hh:mm` -/
  | hoursMinutes
  /-- Hours as a plain number. -/
  | fractionalHours
deriving DecidableEq, Repr

/-- What columns without flags of their own use. -/
structure FormatDefaults where
  /-- Significant digits in normal notation. -/
  precision : Nat := 12
  angleMode : AngleMode := .degrees
  floatStyle : FloatStyle := .normal
  preferFraction : Bool := false
deriving DecidableEq, Repr

/-- What formats a number with as many decimals as it is asked for. -/
structure Formatter (m : Type → Type) where
  fixed (places : Nat) (x : Float) : m Text
  scientific (places : Nat) (x : Float) : m Text
  /-- The mantissa and the exponent of scientific notation. -/
  scientificParts (places : Nat) (x : Float) : m (Text × Int)

namespace Formatter

/-- Formats any number of decimals. -/
def unlimited : Formatter Id where
  fixed := Number.fixed
  scientific := Number.scientific
  scientificParts := Number.scientificParts

/-- Fails for more decimals than can be formatted. -/
def limited : Formatter Option where
  fixed places x := if places ≤ Text.formatLimit then some (Number.fixed places x) else none
  scientific places x :=
    if places ≤ Text.formatLimit then some (Number.scientific places x) else none
  scientificParts places x :=
    if places ≤ Text.formatLimit then some (Number.scientificParts places x) else none

variable {m : Type → Type} [Monad m] (w : Formatter m)

/-- Whole numbers below 10^15 without decimals. Other numbers with `precision` significant digits,
zeros at the end left out, in scientific notation when they are below 10^-5 or have more digits
before the point than that. -/
def general (precision : Nat) (n : Float) : m Text :=
  if Number.isWhole n && n.abs < 1e15 then pure (Text.ofInt (Number.toInt n))
  else do
    let (mantissa, exponent) ← w.scientificParts (precision - 1) n
    if exponent < -5 ∨ (precision : Int) ≤ exponent then
      return Number.trimZeros mantissa ++ 'e' :: Text.ofInt exponent
    else return Number.trimZeros (← w.fixed (precision - 1 - exponent).toNat n)

end Formatter

namespace Number

/-- A number in the default style, whatever its decimals. -/
def general (precision : Nat) (n : Float) : Text := (Formatter.unlimited.general precision n).run

theorem general_eq (precision : Nat) (n : Float) : general precision n =
    if isWhole n && n.abs < 1e15 then Text.ofInt (toInt n)
    else if (scientificParts (precision - 1) n).2 < -5 ∨
        (precision : Int) ≤ (scientificParts (precision - 1) n).2 then
      trimZeros (scientificParts (precision - 1) n).1 ++
        'e' :: Text.ofInt (scientificParts (precision - 1) n).2
    else trimZeros (fixed (precision - 1 - (scientificParts (precision - 1) n).2).toNat n) := by
  unfold general Formatter.general
  split
  · rfl
  · rw [Id.run_bind]
    dsimp only
    split
    case isTrue h => exact (if_pos h).symm
    case isFalse h => exact (if_neg h).symm

/-- The multiple of three at or below the decimal logarithm. -/
def engineeringExponent (log10 : Float → Float) (n : Float) : Int :=
  toInt (floor (log10 n.abs / 3)) * 3

end Number

namespace Formatter

variable {m : Type → Type} [Monad m] (w : Formatter m)

/-- Scientific notation in which the exponent is a multiple of three. The decimal logarithm is that
of the platform. -/
def engineering (log10 : Float → Float) (digits : Nat) (n : Float) : m Text :=
  if n == 0 then w.fixed digits 0
  else do
    let exponent := Number.engineeringExponent log10 n
    let mantissa := n / Number.powerOfTen exponent
    let scale := Number.powerOfTen digits
    let exponent :=
      if Number.round (mantissa.abs * scale) / scale ≥ 1000 then exponent + 3 else exponent
    return (← w.fixed digits (n / Number.powerOfTen exponent)) ++ 'e' :: Text.ofInt exponent

/-- A number in one of the styles, with `precision` significant digits in the normal one. -/
def styled (log10 : Float → Float) (style : FloatStyle) (precision : Nat) (n : Float) : m Text :=
  match style with
  | .normal => w.general precision n
  | .fixed digits => w.fixed digits n
  | .scientific digits => w.scientific digits n
  | .engineering digits => w.engineering log10 digits n

end Formatter

/-- Seconds as `hh:mm:ss`, or as `hh:mm` rounded to minutes. -/
def clockText (withSeconds : Bool) (seconds : Float) : Text :=
  let sign := Number.signText (seconds < 0)
  if withSeconds then
    let total := Number.roundedSize seconds
    sign ++ Text.ofNatPadded 2 (total / 3600) ++ ':' :: Text.ofNatPadded 2 (total / 60 % 60) ++
      ':' :: Text.ofNatPadded 2 (total % 60)
  else
    let minutes := Number.roundedSize (seconds / 60)
    sign ++ Text.ofNatPadded 2 (minutes / 60) ++ ':' :: Text.ofNatPadded 2 (minutes % 60)

end Rollup
