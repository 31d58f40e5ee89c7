import Rollup.Fault
import Rollup.Number.Numeral
import Rollup.Text.Class

/-! # Tokens of formulas -/

namespace Rollup

/-- What is wrong with a formula. -/
inductive FormulaProblem where
  | emptyFormula
  | unterminatedName
  | missingColumnNumber
  | invalidNumber (t : Text)
  | unexpectedCharacter (c : Char)
  | trailingInput
  | unexpectedEnd
  | missingValue
  | missingClose
  | missingCommaOrClose
  | unknownFunction (name : Text)
  | wrongArgumentCount (name : Text) (count : Nat)
deriving DecidableEq, Repr

namespace FormulaProblem

def quote (t : Text) : Text := "`".toList ++ t ++ "`".toList

def message : FormulaProblem → Text
  | emptyFormula => "empty formula".toList
  | unterminatedName => "unterminated quoted name".toList
  | missingColumnNumber => "expected a column number after `$`".toList
  | invalidNumber t => "invalid number ".toList ++ quote t
  | unexpectedCharacter c => "unexpected character ".toList ++ quote [c]
  | trailingInput => "unexpected trailing input".toList
  | unexpectedEnd => "unexpected end of formula".toList
  | missingValue => "expected a value".toList
  | missingClose => "expected `)`".toList
  | missingCommaOrClose => "expected `,` or `)`".toList
  | unknownFunction name => "unknown function ".toList ++ quote name
  | wrongArgumentCount name count =>
    quote name ++ " does not take ".toList ++ Text.ofNat count ++ " argument".toList ++
      (if count = 1 then [] else ['s'])

end FormulaProblem

abbrev FormulaFault := Fault FormulaProblem

def FormulaFault.message (f : FormulaFault) : Text := Fault.message FormulaProblem.message f

inductive Token where
  | number (n : Float)
  | name (t : Text)
  /-- A name in quotes, without them. -/
  | quoted (t : Text)
  /-- A column number after a dollar sign. -/
  | dollar (n : Nat)
  | plus
  | minus
  | star
  | slash
  | caret
  | lparen
  | rparen
  | comma

/-- A token and the byte offset at which it starts. -/
structure PlacedToken where
  token : Token
  offset : Nat

namespace Token

def isNameStart (c : Char) : Bool := Text.isAlphabetic c || c = '_'

def isNamePart (c : Char) : Bool :=
  Text.isAlphabetic c || Text.isNumeric c || c = '_' || c = '.'

def symbol? : Char → Option Token
  | '+' => some plus
  | '-' => some minus
  | '*' => some star
  | '/' => some slash
  | '^' => some caret
  | '(' => some lparen
  | ')' => some rparen
  | ',' => some comma
  | _ => none

/-- The token at the start of a text, given as its first character and the rest, and how many
characters of the rest belong to it. -/
def scan (c : Char) (t : Text) : Except FormulaProblem (Token × Nat) :=
  match symbol? c with
  | some token => .ok (token, 0)
  | none =>
    if c = '\'' ∨ c = '"' then
      let name := t.takeWhile (· != c)
      if name.length = t.length then .error .unterminatedName
      else .ok (quoted name, name.length + 1)
    else if c = '$' then
      let digits := t.takeWhile Char.isDigit
      match Text.toNatBelow? Text.countBound digits with
      | some n => .ok (dollar n, digits.length)
      | none => .error .missingColumnNumber
    else if c.isDigit ∨ c = '.' then
      let (numeral, used) := Numeral.scan (c :: t)
      match numeral.value? with
      | some n => .ok (number n, used - 1)
      | none => .error (.invalidNumber ((c :: t).take used))
    else if isNameStart c then
      let rest := t.takeWhile isNamePart
      .ok (name (c :: rest), rest.length)
    else .error (.unexpectedCharacter c)

/-- The tokens of a text that starts at a byte offset. White space separates them. -/
def readFrom (offset : Nat) : Text → Except FormulaFault (List PlacedToken)
  | [] => .ok []
  | c :: t =>
    if Text.isWhite c then readFrom (offset + c.utf8Size) t
    else
      match scan c t with
      | .error problem => .error ⟨problem, offset⟩
      | .ok (token, used) =>
        (readFrom (offset + Text.byteSize (c :: t.take used)) (t.drop used)).map
          (⟨token, offset⟩ :: ·)
termination_by t => t.length
decreasing_by
  all_goals simp only [List.length_cons, List.length_drop]; omega

/-- The tokens of a formula. -/
def read (t : Text) : Except FormulaFault (List PlacedToken) := readFrom 0 t

end Token

end Rollup
