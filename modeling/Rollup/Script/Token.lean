import Rollup.Fault
import Rollup.Number.Numeral
import Rollup.Number.Word
import Rollup.Text.Class

/-! # Tokens of scripts -/

namespace Rollup

inductive ScriptProblem where
  | malformedNumber (t : Text)
  | malformedString
  | unexpectedCharacter (c : Char)
  | unexpectedToken
  | unexpectedEnd
  | unknownVariable (name : Text)
  | reservedWord (name : Text)
  | notIndexable
  | notTruthValue
deriving DecidableEq, Repr

namespace ScriptProblem

def message : ScriptProblem → Text
  | malformedNumber t => "malformed number `".toList ++ t ++ "`".toList
  | malformedString => "malformed string".toList
  | unexpectedCharacter c => "unexpected character `".toList ++ c :: "`".toList
  | unexpectedToken => "unexpected input".toList
  | unexpectedEnd => "unexpected end of script".toList
  | unknownVariable name => "unknown variable `".toList ++ name ++ "`".toList
  | reservedWord name => "reserved word `".toList ++ name ++ "`".toList
  | notIndexable => "only lists and strings have elements".toList
  | notTruthValue => "a truth value is expected".toList

end ScriptProblem

abbrev ScriptFault := Fault ScriptProblem

namespace Script

inductive Symbol where
  | lparen
  | rparen
  | lbracket
  | rbracket
  | comma
  | dot
  | plus
  | minus
  | times
  | divide
  | modulo
  | power
  | equal
  | notEqual
  | less
  | lessEqual
  | greater
  | greaterEqual
  | conjunction
  | disjunction
  | bang
deriving DecidableEq, Repr

inductive Token where
  | int (n : Int)
  | float (x : Float)
  | string (t : Text)
  | word (t : Text)
  | symbol (s : Symbol)

structure PlacedToken where
  token : Token
  offset : Nat

/-- The word that is an operator. -/
def inWord : Text := "in".toList

/-- Whether an operand may end with a token. A minus after it subtracts. -/
def Token.endsOperand : Token → Bool
  | int _ | float _ | string _ => true
  | word t => t != inWord
  | symbol s => s = .rparen || s = .rbracket

/-! ## Numbers

Digits may be separated by underscores. A point belongs to the number when a digit follows it, or
something that cannot go on after a point. So does a minus right in front, unless it subtracts.
-/

def isDigitPart (c : Char) : Bool := c.isDigit || c = '_'

def isWordStart (c : Char) : Bool := c.isAlpha || c = '_'

def isWordPart (c : Char) : Bool := c.isAlphanum || c = '_'

/-- The point and the decimals at the start of a text. -/
def scanDecimals (t : Text) : Text :=
  match t with
  | '.' :: c :: t =>
    if c.isDigit then '.' :: (c :: t).takeWhile isDigitPart
    else if isWordStart c || c = '.' then []
    else ['.']
  | _ => []

/-- The exponent at the start of a text. -/
def scanPower (t : Text) : Text :=
  match t with
  | e :: c :: t =>
    if e != 'e' && e != 'E' then []
    else if c.isDigit then e :: (c :: t).takeWhile isDigitPart
    else if c = '+' || c = '-' then e :: c :: t.takeWhile isDigitPart
    else []
  | _ => []

/-- The longest number at the start of a text. -/
def scanNumber (t : Text) : Text :=
  let whole := t.takeWhile isDigitPart
  let decimals := scanDecimals (t.drop whole.length)
  whole ++ decimals ++ scanPower (t.drop (whole ++ decimals).length)

/-- Reads a number with or without a minus. One without a point or an exponent is whole, unless it
is no word. -/
def readNumber? (negative : Bool) (t : Text) : Option Token :=
  let digits := t.filter (· != '_')
  let whole := (Text.toNatBelow? (Word.bound + 1) digits).bind fun n =>
    Word.ofInt? (if negative then -n else n)
  match whole with
  | some n => some (.int n)
  | none => (Numeral.read? digits).map fun x => .float (if negative then -x else x)

/-! ## Strings -/

/-- The character that a letter after a backslash stands for. -/
def escaped? : Char → Option Char
  | '\\' => some '\\'
  | '"' => some '"'
  | 't' => some '\t'
  | 'n' => some '\n'
  | 'r' => some '\r'
  | _ => none

/-- The content of a string after its opening quote, and what follows the closing one. A doubled
quote stands for itself. -/
def readString? : Text → Option (Text × Text)
  | [] => none
  | '\\' :: c :: t => do
    let d ← escaped? c
    let (content, after) ← readString? t
    some (d :: content, after)
  | '"' :: '"' :: t => do
    let (content, after) ← readString? t
    some ('"' :: content, after)
  | '"' :: t => some ([], t)
  | c :: t =>
    if c = '\n' then none
    else do
      let (content, after) ← readString? t
      some (c :: content, after)

/-! ## Symbols -/

/-- The symbol at the start of a text, and how many characters it takes after the first. Two signs
in a row and an arrow to the left are no symbols. -/
def symbol? : Char → Text → Option (Symbol × Nat)
  | '(', _ => some (.lparen, 0)
  | ')', _ => some (.rparen, 0)
  | '[', _ => some (.lbracket, 0)
  | ']', _ => some (.rbracket, 0)
  | ',', _ => some (.comma, 0)
  | '.', _ => some (.dot, 0)
  | '+', '+' :: _ => none
  | '+', _ => some (.plus, 0)
  | '-', '-' :: _ => none
  | '-', _ => some (.minus, 0)
  | '*', '*' :: _ => some (.power, 1)
  | '*', _ => some (.times, 0)
  | '/', _ => some (.divide, 0)
  | '%', _ => some (.modulo, 0)
  | '=', '=' :: '=' :: _ => none
  | '=', '=' :: _ => some (.equal, 1)
  | '!', '=' :: '=' :: _ => none
  | '!', '=' :: _ => some (.notEqual, 1)
  | '!', _ => some (.bang, 0)
  | '<', '=' :: _ => some (.lessEqual, 1)
  | '<', '-' :: _ => none
  | '<', _ => some (.less, 0)
  | '>', '=' :: _ => some (.greaterEqual, 1)
  | '>', _ => some (.greater, 0)
  | '&', '&' :: _ => some (.conjunction, 1)
  | '|', '|' :: _ => some (.disjunction, 1)
  | _, _ => none

def startsWithDigit (t : Text) : Bool := t.head?.any Char.isDigit

/-- The token at the start of a text, given as its first character and the rest, and how many
characters of the rest belong to it. A minus before digits subtracts when an operand came before. -/
def scan (afterOperand : Bool) (c : Char) (t : Text) : Except ScriptProblem (Token × Nat) :=
  if c.isDigit then
    let number := scanNumber (c :: t)
    match readNumber? false number with
    | some token => .ok (token, number.length - 1)
    | none => .error (.malformedNumber number)
  else if c = '-' ∧ !afterOperand ∧ startsWithDigit t then
    let number := scanNumber t
    match readNumber? true number with
    | some token => .ok (token, number.length)
    | none => .error (.malformedNumber ('-' :: number))
  else if c = '"' then
    match readString? t with
    | some (content, after) => .ok (.string content, t.length - after.length)
    | none => .error .malformedString
  else if isWordStart c then
    let rest := t.takeWhile isWordPart
    .ok (.word (c :: rest), rest.length)
  else
    match symbol? c t with
    | some (s, used) => .ok (.symbol s, used)
    | none => .error (.unexpectedCharacter c)

/-- The blanks between tokens. -/
def isBlank (c : Char) : Bool := c.isWhitespace || c = Char.ofNat 0xC

/-- The tokens of a script that starts at a byte offset. Blanks separate them. -/
def readTokens (afterOperand : Bool) (offset : Nat) : Text → Except ScriptFault (List PlacedToken)
  | [] => .ok []
  | c :: t =>
    if isBlank c then readTokens afterOperand (offset + c.utf8Size) t
    else
      match scan afterOperand c t with
      | .error problem => .error ⟨problem, offset⟩
      | .ok (token, used) =>
        (readTokens token.endsOperand (offset + Text.byteSize (c :: t.take used)) (t.drop used)).map
          (⟨token, offset⟩ :: ·)
termination_by t => t.length
decreasing_by
  all_goals simp only [List.length_cons, List.length_drop]; omega

end Script

end Rollup
