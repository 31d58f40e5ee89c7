import Rollup.Number.Numeral
import Rollup.Number.Word

/-! # TOML documents

The part of TOML that settings files use: tables, dotted keys, strings on one line, numbers, truth
values, arrays and inline tables. A key is given once, and a table is opened once.
-/

namespace Rollup

/-- How a table came to be, which decides whether it can be extended. -/
inductive TableOrigin where
  /-- Named on the way to a table that was opened. -/
  | implied
  | opened
  /-- Named on the way in a dotted key. -/
  | dotted
  | inline
deriving DecidableEq, Repr

inductive Toml where
  | text (t : Text)
  | integer (n : Int)
  | float (x : Float)
  | boolean (b : Bool)
  | array (items : List Toml)
  | table (origin : TableOrigin) (entries : List (Text × Toml))

namespace Toml

abbrev Entries := List (Text × Toml)

/-! ## Building tables -/

/-- Puts a value in the place of the one with the same key. -/
def replace (key : Text) (value : Toml) (entries : Entries) : Entries :=
  entries.map fun entry => if entry.1 = key then (key, value) else entry

/-- Changes the table at a path. Tables on the way are made when they are missing, and have to be
extensible when they are not. -/
def change? (extensible : TableOrigin → Bool) (made : TableOrigin)
    (f : Entries → Option Entries) : List Text → Entries → Option Entries
  | [], entries => f entries
  | key :: path, entries =>
    match entries.lookup key with
    | none => (change? extensible made f path []).map fun inner =>
      entries ++ [(key, table made inner)]
    | some (table origin inner) =>
      if extensible origin then
        (change? extensible made f path inner).map fun inner =>
          replace key (table origin inner) entries
      else none
    | some _ => none

def isOpen (origin : TableOrigin) : Bool := origin ≠ .inline

def isUnopened (origin : TableOrigin) : Bool := origin = .implied || origin = .dotted

/-- Adds a value under a dotted key. -/
def assign? (path : List Text) (value : Toml) (entries : Entries) : Option Entries :=
  match path.getLast? with
  | none => none
  | some key =>
    let add (inner : Entries) : Option Entries :=
      if (inner.lookup key).isSome then none else some (inner ++ [(key, value)])
    change? isUnopened .dotted add path.dropLast entries

/-- Opens the table at a path. -/
def openTable? (path : List Text) (entries : Entries) : Option Entries :=
  match path.getLast? with
  | none => none
  | some key =>
    let add (inner : Entries) : Option Entries :=
      match inner.lookup key with
      | none => some (inner ++ [(key, table .opened [])])
      | some (table .implied entries) => some (replace key (table .opened entries) inner)
      | some _ => none
    change? isOpen .implied add path.dropLast entries

/-! ## Characters -/

def isBlank (c : Char) : Bool := c = ' ' || c = '\t'

def dropBlanks (t : Text) : Text := t.dropWhile isBlank

/-- Characters that stand in no string and in no comment. -/
def isControl (c : Char) : Bool := (c.toNat < 0x20 && c ≠ '\t') || c.toNat = 0x7F

def isBareKeyPart (c : Char) : Bool := c.isAlphanum || c = '_' || c = '-'

/-- What follows a comment, if one starts here, and otherwise the text itself. -/
def dropComment? (t : Text) : Option Text :=
  match t with
  | '#' :: t =>
    let comment := t.takeWhile fun c => c ≠ '\n' && c ≠ '\r'
    if comment.any isControl then none else some (t.drop comment.length)
  | t => some t

/-- What follows the end of a line, before which blanks and a comment may stand. -/
def endLine? (t : Text) : Option Text :=
  match dropComment? (dropBlanks t) with
  | some [] => some []
  | some ('\n' :: t) => some t
  | some ('\r' :: '\n' :: t) => some t
  | _ => none

/-! ## Strings -/

def isHexDigit (c : Char) : Bool :=
  c.isDigit || ('a' ≤ c && c ≤ 'f') || ('A' ≤ c && c ≤ 'F')

def hexValue (ds : Text) : Nat := Nat.ofDigitChars 16 ds 0

/-- The character with a code of exactly `count` hexadecimal digits. -/
def coded? (count : Nat) (t : Text) : Option Char :=
  let ds := t.take count
  if ds.length = count ∧ ds.all isHexDigit ∧ (hexValue ds).isValidChar then
    some (Char.ofNat (hexValue ds))
  else none

/-- The character that an escape stands for, given after its backslash, and the number of characters
of the escape. -/
def escape? : Text → Option (Char × Nat)
  | 'b' :: _ => some ('\x08', 1)
  | 't' :: _ => some ('\t', 1)
  | 'n' :: _ => some ('\n', 1)
  | 'f' :: _ => some ('\x0c', 1)
  | 'r' :: _ => some ('\r', 1)
  | '"' :: _ => some ('"', 1)
  | '\\' :: _ => some ('\\', 1)
  | 'u' :: t => (coded? 4 t).map (·, 5)
  | 'U' :: t => (coded? 8 t).map (·, 9)
  | _ => none

/-- The content of a string in double quotes after its opening quote, and what follows the closing
one. -/
def basicString? (t : Text) : Option (Text × Text) :=
  match t with
  | [] => none
  | '"' :: t => some ([], t)
  | c :: t =>
    if c = '\\' then do
      let (d, used) ← escape? t
      let (content, after) ← basicString? (t.drop used)
      some (d :: content, after)
    else if isControl c then none
    else (basicString? t).map fun (content, after) => (c :: content, after)
termination_by t.length
decreasing_by
  all_goals simp only [List.length_cons, List.length_drop]; omega

/-- The content of a string in single quotes after its opening quote, and what follows. -/
def literalString? (t : Text) : Option (Text × Text) :=
  let content := t.takeWhile (· ≠ '\'')
  if content.length = t.length ∨ content.any isControl then none
  else some (content, t.drop (content.length + 1))

/-! ## Keys -/

/-- One part of a dotted key, and what follows it. -/
def simpleKey? : Text → Option (Text × Text)
  | '"' :: t => basicString? t
  | '\'' :: t => literalString? t
  | t =>
    let key := t.takeWhile isBareKeyPart
    if key = [] then none else some (key, t.drop key.length)

/-- A dotted key of at most `fuel` parts, and what follows it. Blanks may stand around its parts. -/
def key? : (fuel : Nat) → Text → Option (List Text × Text)
  | 0, _ => none
  | fuel + 1, t => do
    let (first, after) ← simpleKey? (dropBlanks t)
    match dropBlanks after with
    | '.' :: after =>
      let (rest, after) ← key? fuel after
      some (first :: rest, after)
    | after => some ([first], after)

/-! ## Numbers -/

/-- The digits of a number in which single underscores stand between digits. -/
def digits? (isDigit : Char → Bool) (t : Text) : Option Text :=
  let pieces := Text.split '_' t
  if pieces.all fun piece => piece ≠ [] && piece.all isDigit then some pieces.flatten else none

/-- Decimal digits without a needless zero in front. -/
def decimal? (t : Text) : Option Nat :=
  (digits? Char.isDigit t).bind fun ds =>
    if 1 < ds.length ∧ ds.head? = some '0' then none else some (Text.digitsToNat ds)

/-- The digits of a base that a mark such as `0x` names. -/
def marked? (base : Nat) (isDigit : Char → Bool) (t : Text) : Option Int :=
  (digits? isDigit t).map fun ds => (Nat.ofDigitChars base ds 0 : Int)

def wholeNumber? : Text → Option Int
  | '0' :: 'x' :: t => marked? 16 isHexDigit t
  | '0' :: 'o' :: t => marked? 8 (fun c => '0' ≤ c && c ≤ '7') t
  | '0' :: 'b' :: t => marked? 2 (fun c => c = '0' || c = '1') t
  | '-' :: t => (decimal? t).map fun n => -(n : Int)
  | '+' :: t => (decimal? t).map Int.ofNat
  | t => (decimal? t).map Int.ofNat

/-- A whole number that is a word. -/
def integer? (t : Text) : Option Int := (wholeNumber? t).bind Word.ofInt?

def withoutSign : Text → Text
  | '-' :: t => t
  | '+' :: t => t
  | t => t

/-- Whether a text is an exponent, or nothing. -/
def isExponent : Text → Bool
  | [] => true
  | c :: t => (c = 'e' || c = 'E') && (digits? Char.isDigit (withoutSign t)).isSome

/-- Whether a text is a point with decimals and perhaps an exponent, or an exponent. -/
def isFraction : Text → Bool
  | '.' :: t =>
    let ds := t.takeWhile fun c => c.isDigit || c = '_'
    (digits? Char.isDigit ds).isSome && isExponent (t.drop ds.length)
  | t => t ≠ [] && isExponent t

def float? (t : Text) : Option Float :=
  let size := withoutSign t
  let whole := size.takeWhile fun c => c.isDigit || c = '_'
  if size = "inf".toList then some (if t.head? = some '-' then -1.0 / 0.0 else 1.0 / 0.0)
  else if size = "nan".toList then some (0.0 / 0.0)
  else if (decimal? whole).isSome && isFraction (size.drop whole.length) then
    Number.read? (t.filter (· ≠ '_'))
  else none

/-! ## Values -/

/-- Characters of numbers and truth values. -/
def isScalarPart (c : Char) : Bool := c.isAlphanum || c = '_' || c = '+' || c = '-' || c = '.'

def scalar? (t : Text) : Option Toml :=
  if t = "true".toList then some (boolean true)
  else if t = "false".toList then some (boolean false)
  else
    match integer? t with
    | some n => some (integer n)
    | none => (float? t).map float

/-- What follows the blanks, comments and line ends inside an array, of which there are at most
`fuel`. -/
def dropSpace? : (fuel : Nat) → Text → Option Text
  | 0, _ => none
  | fuel + 1, t => do
    match ← dropComment? (dropBlanks t) with
    | '\n' :: t => dropSpace? fuel t
    | '\r' :: '\n' :: t => dropSpace? fuel t
    | t => some t

mutual

/-- The value at the start of a text, and what follows it. -/
def value? : (fuel : Nat) → Text → Option (Toml × Text)
  | 0, _ => none
  | fuel + 1, t =>
    match t with
    | '"' :: t => (basicString? t).map fun (content, after) => (text content, after)
    | '\'' :: t => (literalString? t).map fun (content, after) => (text content, after)
    | '[' :: t => (items? fuel t).map fun (items, after) => (array items, after)
    | '{' :: t =>
      match dropBlanks t with
      | '}' :: after => some (table .inline [], after)
      | t => (entries? fuel [] t).map fun (entries, after) => (table .inline entries, after)
    | t =>
      let word := t.takeWhile isScalarPart
      (scalar? word).map fun v => (v, t.drop word.length)

/-- The items of an array up to its closing bracket. A comma may follow the last one. -/
def items? : (fuel : Nat) → Text → Option (List Toml × Text)
  | 0, _ => none
  | fuel + 1, t => do
    match ← dropSpace? (t.length + 1) t with
    | ']' :: after => some ([], after)
    | t =>
      let (item, after) ← value? fuel t
      match ← dropSpace? (after.length + 1) after with
      | ',' :: after =>
        let (items, after) ← items? fuel after
        some (item :: items, after)
      | ']' :: after => some ([item], after)
      | _ => none

/-- The entries of an inline table up to its closing brace, added to those before. -/
def entries? : (fuel : Nat) → Entries → Text → Option (Entries × Text)
  | 0, _, _ => none
  | fuel + 1, before, t => do
    let (path, after) ← key? (t.length + 1) t
    match after with
    | '=' :: after =>
      let (value, after) ← value? fuel (dropBlanks after)
      let entries ← assign? path value before
      match dropBlanks after with
      | ',' :: after => entries? fuel entries after
      | '}' :: after => some (entries, after)
      | _ => none
    | _ => none

end

/-! ## Documents -/

/-- What one line of a document does. -/
inductive Statement where
  | openTable (path : List Text)
  | assign (path : List Text) (value : Toml)

/-- The statement at the start of a text, and what follows its line. -/
def statement? (t : Text) : Option (Statement × Text) :=
  match t with
  | '[' :: t => do
    let (path, after) ← key? (t.length + 1) t
    match after with
    | ']' :: after => some (.openTable path, ← endLine? after)
    | _ => none
  | t => do
    let (path, after) ← key? (t.length + 1) t
    match after with
    | '=' :: after =>
      let (value, after) ← value? (2 * after.length + 2) (dropBlanks after)
      some (.assign path value, ← endLine? after)
    | _ => none

/-- The statements of a document of at most `fuel` lines. -/
def statements? : (fuel : Nat) → Text → Option (List Statement)
  | 0, _ => none
  | fuel + 1, t =>
    let t := dropBlanks t
    if t = [] then some []
    else
      match endLine? t with
      | some after => statements? fuel after
      | none => do
        let (s, after) ← statement? t
        return s :: (← statements? fuel after)

/-- Applies statements to a document. Values are added to the table that was opened last. -/
def build? (current : List Text) (entries : Entries) : List Statement → Option Entries
  | [] => some entries
  | .openTable path :: ss => (openTable? path entries).bind fun entries => build? path entries ss
  | .assign path value :: ss =>
    (change? isOpen .implied (assign? path value) current entries).bind fun entries =>
      build? current entries ss

/-- The entries of a document. -/
def read? (t : Text) : Option Entries := (statements? (t.length + 1) t).bind (build? [] [])

end Toml

end Rollup
