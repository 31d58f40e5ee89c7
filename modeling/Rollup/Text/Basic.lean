/-! # Texts

A text is the list of its characters. Offsets into a text count the bytes of its UTF-8 form, so a
position is the `byteSize` of what stands before it.
-/

namespace Rollup

abbrev Text := List Char

namespace Text

/-! ## Size -/

/-- The number of bytes of the UTF-8 form. -/
def byteSize : Text → Nat
  | [] => 0
  | c :: t => c.utf8Size + byteSize t

@[simp] theorem byteSize_nil : byteSize [] = 0 := rfl

@[simp] theorem byteSize_cons (c : Char) (t : Text) :
    byteSize (c :: t) = c.utf8Size + byteSize t := rfl

@[simp] theorem byteSize_append (s t : Text) : byteSize (s ++ t) = byteSize s + byteSize t := by
  induction s with
  | nil => simp
  | cons c s ih => simp [ih, Nat.add_assoc]

/-! ## Padding -/

/-- The largest width, and the most decimals, that can be asked for when a text is formatted. -/
def formatLimit : Nat := 65535

/-- Blanks on the left, up to `width` characters in all. -/
def padLeft (width : Nat) (t : Text) : Text := List.replicate (width - t.length) ' ' ++ t

/-- Blanks on the right, up to `width` characters in all. -/
def padRight (width : Nat) (t : Text) : Text := t ++ List.replicate (width - t.length) ' '

/-- Formats a text with blanks on the left. It fails for a width beyond the limit. -/
def padLeft? (width : Nat) (t : Text) : Option Text :=
  if width ≤ formatLimit then some (padLeft width t) else none

/-- Formats a text with blanks on the right. It fails for a width beyond the limit. -/
def padRight? (width : Nat) (t : Text) : Option Text :=
  if width ≤ formatLimit then some (padRight width t) else none

/-! ## Pieces -/

def joinWith (separator : Text) (ts : List Text) : Text := separator.intercalate ts

/-- Puts a character in front of the first piece. -/
def consFirst (c : Char) : List Text → List Text
  | [] => [[c]]
  | t :: ts => (c :: t) :: ts

/-- The pieces between the separators. There is always one more piece than separators. -/
def split (separator : Char) : Text → List Text
  | [] => [[]]
  | c :: t => if c = separator then [] :: split separator t else consFirst c (split separator t)

/-- The lines, without their endings. A line ends at a line feed, together with one carriage return
right before it, and a text that ends with a line feed has no further line. -/
def lines : Text → List Text
  | [] => []
  | '\n' :: t => [] :: lines t
  | '\r' :: '\n' :: t => [] :: lines t
  | c :: t => consFirst c (lines t)

def contains (c : Char) (t : Text) : Bool := t.any (· == c)

/-- What follows `start`, if the text starts with it. -/
def after? : (start t : Text) → Option Text
  | [], t => some t
  | _ :: _, [] => none
  | c :: start, d :: t => if c = d then after? start t else none

/-- What precedes the final character `last`, if the text ends with it. -/
def before? (last : Char) (t : Text) : Option Text :=
  if t.getLast? = some last then some t.dropLast else none

/-! ## Order -/

/-- The order of the UTF-8 bytes, which is that of the code points. -/
def compare : Text → Text → Ordering
  | [], [] => .eq
  | [], _ :: _ => .lt
  | _ :: _, [] => .gt
  | c :: s, d :: t => (Ord.compare c.toNat d.toNat).then (compare s t)

/-! ## Whole numbers -/

def ofNat (n : Nat) : Text := Nat.toDigits 10 n

def ofInt : Int → Text
  | .ofNat n => ofNat n
  | .negSucc n => '-' :: ofNat (n + 1)

/-- Zeros on the left, up to `width` digits in all. -/
def ofNatPadded (width n : Nat) : Text :=
  List.replicate (width - (ofNat n).length) '0' ++ ofNat n

/-- The number that a run of decimal digits denotes. -/
def digitsToNat (digits : Text) : Nat := Nat.ofDigitChars 10 digits 0

/-- Reads decimal digits, at least one of them, that denote a number below `bound`. -/
def toNatBelow? (bound : Nat) (t : Text) : Option Nat :=
  if t ≠ [] ∧ t.all Char.isDigit ∧ digitsToNat t < bound then some (digitsToNat t) else none

/-- Reads a number as `toNatBelow?` does, also with a plus sign in front. -/
def signedToNatBelow? (bound : Nat) : Text → Option Nat
  | '+' :: t => toNatBelow? bound t
  | t => toNatBelow? bound t

/-- One more than the largest number that counts and positions can take. -/
def countBound : Nat := Nat.pow 2 64

end Text

end Rollup
