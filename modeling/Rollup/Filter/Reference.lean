import Rollup.Text.Class

/-! # Column references in filters

A filter is a script in which columns are mentioned as `'name'`, as `$` with a number, or by a bare
name. Outside string literals every mention of a column is replaced by an access to the row. A bare
name may have dots in it, and of a name that is no column the longest part before a dot that is one
is replaced, so that what follows is a method of the cell.
-/

namespace Rollup.Filter

/-! ## String literals -/

/-- A script is cut into its string literals and what stands between them. -/
inductive Piece where
  | outside (t : Text)
  | literal (t : Text)
deriving DecidableEq, Repr

def Piece.text : Piece → Text
  | outside t => t
  | literal t => t

/-- The rest of a string literal, up to a quote that is not escaped or to the end, and what follows.
`escaped` tells whether an odd number of backslashes stands right before. -/
def splitLiteral (escaped : Bool) : Text → Text × Text
  | [] => ([], [])
  | c :: t =>
    if c = '"' ∧ !escaped then (['"'], t)
    else
      let (inside, after) := splitLiteral (c = '\\' && !escaped) t
      (c :: inside, after)

theorem length_splitLiteral (escaped : Bool) (t : Text) :
    (splitLiteral escaped t).2.length ≤ t.length := by
  induction t generalizing escaped with
  | nil => simp [splitLiteral]
  | cons c t ih =>
    unfold splitLiteral
    split
    · simp
    · simpa using Nat.le_succ_of_le (ih _)

/-- Cuts a script into pieces. -/
def cut : Text → List Piece
  | [] => []
  | c :: t =>
    if c = '"' then
      let r := splitLiteral false t
      .literal ('"' :: r.1) :: cut r.2
    else
      let inside := t.takeWhile (· != '"')
      .outside (c :: inside) :: cut (t.drop inside.length)
termination_by t => t.length
decreasing_by
  · have := length_splitLiteral false t
    simp only [List.length_cons]; omega
  · simp only [List.length_cons, List.length_drop]; omega

/-! ## Mentions -/

/-- A part of a script that may stand for a column. -/
inductive Mention where
  /-- A name in single quotes. -/
  | quoted (name : Text)
  /-- The digits after a dollar sign. -/
  | position (digits : Text)
  /-- A bare name, whether it stands right after a dot, and whether a parenthesis follows. -/
  | bare (name : Text) (afterDot beforeCall : Bool)
deriving DecidableEq, Repr

/-- The mention as it is written. -/
def Mention.text : Mention → Text
  | quoted name => '\'' :: name ++ ['\'']
  | position digits => '$' :: digits
  | bare name _ _ => name

/-- A part of a script outside string literals. -/
inductive Part where
  | plain (c : Char)
  | mention (m : Mention) (offset : Nat)
deriving DecidableEq, Repr

def isNameStart (c : Char) : Bool := Text.isAlphabetic c || c = '_'

def isNamePart (c : Char) : Bool :=
  Text.isAlphabetic c || Text.isNumeric c || c = '_' || c = '.'

/-- Whether the next character that is not white space opens a parenthesis. -/
def opensCall (t : Text) : Bool := (Text.trimStart t).head? = some '('

/-- The mention at the start of a text, given the character before it. A bare name does not start
inside a word. -/
def mention? (before : Option Char) : Text → Option Mention
  | [] => none
  | c :: t =>
    if c = '\'' then
      let name := t.takeWhile (· != '\'')
      if name.length = t.length then none else some (.quoted name)
    else if c = '$' then
      let digits := t.takeWhile Char.isDigit
      if digits = [] then none else some (.position digits)
    else if isNameStart c && !before.any Text.isWord then
      let rest := t.takeWhile isNamePart
      some (.bare (c :: rest) (before = some '.') (opensCall (t.drop rest.length)))
    else none

/-- Cuts a text outside string literals into parts. It starts at a byte offset of the script. -/
def parts (offset : Nat) (before : Option Char) : Text → List Part
  | [] => []
  | c :: t =>
    match mention? before (c :: t) with
    | none => .plain c :: parts (offset + c.utf8Size) (some c) t
    | some m =>
      .mention m offset ::
        parts (offset + Text.byteSize m.text) m.text.getLast? (t.drop (m.text.length - 1))
termination_by t => t.length
decreasing_by
  all_goals simp only [List.length_cons, List.length_drop]; omega

/-! ## Substitution -/

/-- A name that is looked up, with its byte offset in the script. -/
structure Reference where
  name : Text
  quoted : Bool
  offset : Nat
deriving DecidableEq, Repr

/-- The access that stands for the cell at a position. -/
def access (position : Nat) : Text := "row[".toList ++ Text.ofNat position ++ [']']

/-- The parts of a name before and from each of its dots, the longest first. -/
def dotSplits : Text → List (Text × Text)
  | [] => []
  | c :: t =>
    let later := (dotSplits t).map fun (name, rest) => (c :: name, rest)
    if c = '.' then later ++ [([], c :: t)] else later

/-- What may be looked up for a mention, and what of it stays behind the column. -/
def Mention.candidates : Mention → List (Text × Text)
  | quoted name => [(name, [])]
  | position digits => [('$' :: digits, [])]
  | bare name afterDot beforeCall =>
    if afterDot then [] else (if beforeCall then [] else [(name, [])]) ++ dotSplits name

def Mention.isQuoted : Mention → Bool
  | quoted _ => true
  | _ => false

/-- Looks the candidates up in turn and replaces the first that is a column. -/
def firstColumn {m : Type → Type} [Monad m] (lookup : Reference → m (Option Nat)) (quoted : Bool)
    (offset : Nat) : List (Text × Text) → m (Option Text)
  | [] => pure none
  | (name, rest) :: candidates => do
    match ← lookup ⟨name, quoted, offset⟩ with
    | some position => pure (some (access position ++ rest))
    | none => firstColumn lookup quoted offset candidates

def substitutePart {m : Type → Type} [Monad m] (lookup : Reference → m (Option Nat)) :
    Part → m Text
  | .plain c => pure [c]
  | .mention n offset => do
    return (← firstColumn lookup n.isQuoted offset n.candidates).getD n.text

/-- Substitutes in a text outside string literals that starts at a byte offset. -/
def substituteOutside {m : Type → Type} [Monad m] (lookup : Reference → m (Option Nat))
    (offset : Nat) (t : Text) : m Text := do
  return (← (parts offset none t).mapM (substitutePart lookup)).flatten

def substitutePieces {m : Type → Type} [Monad m] (lookup : Reference → m (Option Nat)) :
    (offset : Nat) → List Piece → m Text
  | _, [] => pure []
  | offset, .literal t :: pieces => do
    return t ++ (← substitutePieces lookup (offset + Text.byteSize t) pieces)
  | offset, .outside t :: pieces => do
    let replaced ← substituteOutside lookup offset t
    return replaced ++ (← substitutePieces lookup (offset + Text.byteSize t) pieces)

/-- Replaces the columns that a script mentions by accesses to the row. The lookups are made from
left to right, so they may keep a state. -/
def substitute {m : Type → Type} [Monad m] (lookup : Reference → m (Option Nat)) (script : Text) :
    m Text :=
  substitutePieces lookup 0 (cut script)

end Rollup.Filter
