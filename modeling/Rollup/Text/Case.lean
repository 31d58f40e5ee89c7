import Rollup.Text.Class
import Rollup.Text.Property.Upper
import Rollup.Text.Property.Lower

/-! # Upper and lower case

The full case mappings of Unicode, in which a character may become several. A capital sigma at the
end of a word has a lower case form of its own.
-/

namespace Rollup.Text

/-- ASCII letters in lower case, all else unchanged. -/
def asciiLower (t : Text) : Text := t.map Char.toLower

/-- The other case of a character that lies in one of the runs. -/
def shiftIn? (c : Nat) : List (Nat × Nat × Nat × Int) → Option Nat
  | [] => none
  | (first, last, step, offset) :: runs =>
    if first ≤ c ∧ c ≤ last ∧ (c - first) % step = 0 then some (c + offset).toNat
    else shiftIn? c runs

/-- The case form of one character: its expansion, its shifted form, or itself. -/
def mapCase (runs : List (Nat × Nat × Nat × Int)) (expansions : List (Nat × List Nat))
    (c : Char) : Text :=
  match expansions.lookup c.toNat with
  | some codes => codes.map Char.ofNat
  | none =>
    match shiftIn? c.toNat runs with
    | some code => [Char.ofNat code]
    | none => [c]

def upper (t : Text) : Text := t.flatMap (mapCase Property.upperRuns Property.upperExpansions)

def lowerChar (c : Char) : Text := mapCase Property.lowerRuns Property.lowerExpansions c

/-- Whether a character has a case: one of its case forms differs from it. -/
def isCased (c : Char) : Bool :=
  lowerChar c != [c] || mapCase Property.upperRuns Property.upperExpansions c != [c]

/-- Marks and the punctuation found inside words do not end a word for the final sigma. -/
def isCaseIgnorable (c : Char) : Bool :=
  (isWord c && !isAlphabetic c && !isNumeric c && c != '_') ||
    ['\'', '.', ':', '^', Char.ofNat 0x60, Char.ofNat 0xAD, Char.ofNat 0xB7,
      Char.ofNat 0x2018, Char.ofNat 0x2019].contains c

/-- Whether the next character that counts has a case. -/
def casedNext (t : Text) : Bool :=
  match t.dropWhile isCaseIgnorable with
  | [] => false
  | c :: _ => isCased c

/-- Lower case of a text, given the characters before it, the nearest first. -/
def lowerAfter : (before t : Text) → Text
  | _, [] => []
  | before, c :: t =>
    let form :=
      if c = 'Σ' then (if casedNext before && !casedNext t then ['ς'] else ['σ']) else lowerChar c
    form ++ lowerAfter (c :: before) t

def lower (t : Text) : Text := lowerAfter [] t

end Rollup.Text
