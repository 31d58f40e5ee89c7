import Rollup.Text.Basic
import Rollup.Text.Property.Alphabetic
import Rollup.Text.Property.Letter
import Rollup.Text.Property.Numeric
import Rollup.Text.Property.Word

/-! # Character classes and trimming -/

namespace Rollup.Text

/-- Whether a number lies in one of the ranges, which are ascending. -/
def inRanges : List (Nat × Nat) → Nat → Bool
  | [], _ => false
  | (first, last) :: ranges, n =>
    if n < first then false else if n ≤ last then true else inRanges ranges n

/-- The ranges of code points with the Unicode property White_Space. -/
def whiteRanges : List (Nat × Nat) := [
  (0x9, 0xD), (0x20, 0x20), (0x85, 0x85), (0xA0, 0xA0), (0x1680, 0x1680), (0x2000, 0x200A),
  (0x2028, 0x2029), (0x202F, 0x202F), (0x205F, 0x205F), (0x3000, 0x3000)]

def isWhite (c : Char) : Bool := inRanges whiteRanges c.toNat

def isAlphabetic (c : Char) : Bool := inRanges Property.alphabeticRanges c.toNat

def isLetter (c : Char) : Bool := inRanges Property.letterRanges c.toNat

def isNumeric (c : Char) : Bool := inRanges Property.numericRanges c.toNat

/-- Whether a character is part of a word, so that a word ends where the class changes. -/
def isWord (c : Char) : Bool := inRanges Property.wordRanges c.toNat

def trimStart (t : Text) : Text := t.dropWhile isWhite

def trimEnd (t : Text) : Text := (t.reverse.dropWhile isWhite).reverse

/-- Without the white space at both ends. -/
def trim (t : Text) : Text := trimEnd (trimStart t)

def isBlank (t : Text) : Bool := t.all isWhite

end Rollup.Text
