import Rollup.Fault
import Rollup.Format.Style

/-! # Printf patterns

A pattern is plain text with conversions `%` flags width `.`precision kind. Every conversion renders
the same number.
-/

namespace Rollup

/-- What is wrong with a format segment. -/
inductive FormatProblem where
  | needsDigits (flag : Char)
  | unknownFlag (flag : Char)
  | unknownConversion (kind : Char)
  | incompleteConversion
deriving DecidableEq, Repr

def FormatProblem.message : FormatProblem → Text
  | needsDigits flag => "flag `".toList ++ flag :: "` needs a digit count".toList
  | unknownFlag flag => "unknown format flag `".toList ++ flag :: "`".toList
  | unknownConversion kind => "unknown printf conversion `%".toList ++ kind :: "`".toList
  | incompleteConversion => "incomplete printf conversion".toList

namespace Printf

inductive Kind where
  | whole
  | fixed
  | exponent (upper : Bool)
  | general (upper : Bool)
  | hexadecimal (upper : Bool)
  | octal
  | string
deriving DecidableEq, Repr

def Kind.ofChar? : Char → Option Kind
  | 'd' | 'i' => some .whole
  | 'f' | 'F' => some .fixed
  | 'e' => some (.exponent false)
  | 'E' => some (.exponent true)
  | 'g' => some (.general false)
  | 'G' => some (.general true)
  | 'x' => some (.hexadecimal false)
  | 'X' => some (.hexadecimal true)
  | 'o' => some .octal
  | 's' => some .string
  | _ => none

structure Flags where
  left : Bool
  plus : Bool
  space : Bool
  zero : Bool
  alternate : Bool
deriving DecidableEq, Repr

def Flags.ofText (t : Text) : Flags where
  left := Text.contains '-' t
  plus := Text.contains '+' t
  space := Text.contains ' ' t
  zero := Text.contains '0' t
  alternate := Text.contains '#' t

structure Conversion where
  flags : Flags
  width : Nat
  precision : Option Nat
  kind : Kind
deriving DecidableEq, Repr

inductive Piece where
  | literal (t : Text)
  | conversion (c : Conversion)
deriving DecidableEq, Repr

end Printf

/-- A pattern, cut into plain texts and conversions. -/
abbrev Printf := List Printf.Piece

namespace Printf

/-! ## Reading patterns -/

def isFlag (c : Char) : Bool := ['-', '+', ' ', '0', '#'].contains c

/-- What stands between the percent sign and the kind of a conversion. -/
structure Head where
  flags : Text
  width : Text
  precision : Option Text
deriving DecidableEq, Repr

/-- The longest head at the start of a text. -/
def Head.scan (t : Text) : Head :=
  let flags := t.takeWhile isFlag
  let t := t.drop flags.length
  let width := t.takeWhile Char.isDigit
  let t := t.drop width.length
  ⟨flags, width, (Text.after? ['.'] t).map (·.takeWhile Char.isDigit)⟩

def Head.text (h : Head) : Text :=
  h.flags ++ h.width ++ (match h.precision with | some p => '.' :: p | none => [])

def Head.conversion (h : Head) (kind : Kind) : Conversion where
  flags := Flags.ofText h.flags
  width := Text.digitsToNat h.width
  precision := h.precision.map Text.digitsToNat
  kind := kind

/-- Puts a character in front, joined to the plain text that follows. -/
def consLiteral (c : Char) : Printf → Printf
  | .literal t :: pieces => .literal (c :: t) :: pieces
  | pieces => .literal [c] :: pieces

/-- Reads a pattern that starts at a byte offset. -/
def read (offset : Nat) : Text → Except (Fault FormatProblem) Printf
  | [] => .ok []
  | '%' :: '%' :: t => (read (offset + 2) t).map (consLiteral '%')
  | '%' :: t =>
    let head := Head.scan t
    match t.drop head.text.length with
    | [] => .error ⟨.incompleteConversion, offset⟩
    | c :: _ =>
      match Kind.ofChar? c with
      | none => .error ⟨.unknownConversion c, offset + 1 + Text.byteSize head.text⟩
      | some kind =>
        (read (offset + 2 + Text.byteSize head.text) (t.drop (head.text.length + 1))).map
          (.conversion (head.conversion kind) :: ·)
  | c :: t => (read (offset + c.utf8Size) t).map (consLiteral c)
termination_by t => t.length
decreasing_by
  all_goals simp only [List.length_cons, List.length_drop]; omega

/-! ## Rendering -/

/-- Zeros at the end are left out unless `alternate`. -/
def trimmed (alternate : Bool) (t : Text) : Text := if alternate then t else Number.trimZeros t

/-- In exponent notation the zeros stand in front of the letter. -/
def trimmedMantissa (alternate : Bool) (t : Text) : Text :=
  let mantissa := t.takeWhile fun c => c != 'e' && c != 'E'
  trimmed alternate mantissa ++ t.drop mantissa.length

section

variable {m : Type → Type} [Monad m] (w : Formatter m)

/-- Exponent notation with a sign and at least two digits in the exponent, as in `1.50e+03`. -/
def exponentText (upper : Bool) (decimals : Nat) (size : Float) : m Text := do
  let (mantissa, exponent) ← w.scientificParts decimals size
  return mantissa ++ (if upper then 'E' else 'e') :: (if exponent < 0 then '-' else '+') ::
    Text.ofNatPadded 2 exponent.natAbs

/-- The shorter of fixed and exponent notation with `precision` significant digits. -/
def generalText (upper alternate : Bool) (precision : Nat) (size : Float) : m Text :=
  if size == 0 then pure ['0']
  else do
    let (_, exponent) ← w.scientificParts (precision - 1) size
    if exponent < -4 ∨ (precision : Int) ≤ exponent then
      return trimmedMantissa alternate (← exponentText w upper (precision - 1) size)
    else return trimmed alternate (← w.fixed (precision - 1 - exponent).toNat size)

end

/-- The digits of a whole number, behind the mark of the base when `alternate` asks for it. -/
def withMark (alternate : Bool) (mark digits : Text) : Text :=
  if alternate && digits != ['0'] then mark ++ digits else digits

def upperHex (t : Text) : Text := t.map Char.toUpper

section

variable {m : Type → Type} [Monad m] (w : Formatter m)

/-- The text of the size of a number, or of the number itself for strings. -/
def Conversion.bodyBy (c : Conversion) (defaultPrecision : Nat) (n : Float) : m Text :=
  let size := n.abs
  match c.kind with
  | .whole => pure (Text.ofNat (Number.roundedSize n))
  | .fixed => w.fixed (c.precision.getD 6) size
  | .exponent upper => exponentText w upper (c.precision.getD 6) size
  | .general upper => generalText w upper c.flags.alternate (max (c.precision.getD 6) 1) size
  | .hexadecimal false =>
    pure (withMark c.flags.alternate ['0', 'x'] (Nat.toDigits 16 (Number.roundedSize n)))
  | .hexadecimal true =>
    pure (withMark c.flags.alternate ['0', 'X']
      (upperHex (Nat.toDigits 16 (Number.roundedSize n))))
  | .octal => pure (withMark c.flags.alternate ['0'] (Nat.toDigits 8 (Number.roundedSize n)))
  | .string => do
    let t ← w.general (max defaultPrecision 1) n
    match c.precision with
    | some p => return t.take p
    | none => return t

end

/-- The text of the size of a number, whatever its decimals. -/
def Conversion.body (c : Conversion) (defaultPrecision : Nat) (n : Float) : Text :=
  (c.bodyBy .unlimited defaultPrecision n).run

/-- The sign in front of the body. Strings carry their own. -/
def Conversion.sign (c : Conversion) (n : Float) : Text :=
  if c.kind = .string then []
  else if n < 0 then ['-']
  else if c.flags.plus then ['+']
  else if c.flags.space then [' ']
  else []

/-- The sign, the body and what fills the width. -/
def Conversion.fill (c : Conversion) (sign body : Text) : Text :=
  let padding := c.width - (sign ++ body).length
  if c.flags.left then sign ++ body ++ List.replicate padding ' '
  else if c.flags.zero && c.kind != .string then sign ++ List.replicate padding '0' ++ body
  else List.replicate padding ' ' ++ sign ++ body

section

variable {m : Type → Type} [Monad m] (w : Formatter m)

def Conversion.renderBy (c : Conversion) (defaultPrecision : Nat) (n : Float) : m Text :=
  c.fill (c.sign n) <$> c.bodyBy w defaultPrecision n

def Piece.renderBy (defaultPrecision : Nat) (n : Float) : Piece → m Text
  | .literal t => pure t
  | .conversion c => c.renderBy w defaultPrecision n

def renderBy (p : Printf) (defaultPrecision : Nat) (n : Float) : m Text :=
  List.flatten <$> p.mapM (Piece.renderBy w defaultPrecision n)

end

/-- A conversion, whatever the decimals of its body. -/
def Conversion.render (c : Conversion) (defaultPrecision : Nat) (n : Float) : Text :=
  (c.renderBy .unlimited defaultPrecision n).run

end Printf

end Rollup
