import Rollup.Script.Token

/-! # Scripts as trees

Operators from the loosest to the tightest: `||`, `&&`, `==` and `!=`, `in`, the comparisons, `+`
and `-`, `*` `/` and `%`, `**`, and the signs and `!` in front. All group to the left but `**`.
Methods, properties and elements come after what they belong to. The only variable is `row`.
-/

namespace Rollup.Script

inductive BinaryOperator where
  | or
  | and
  | equal
  | notEqual
  | isIn
  | less
  | lessEqual
  | greater
  | greaterEqual
  | plus
  | minus
  | times
  | divide
  | modulo
  | power
deriving DecidableEq, Repr

inductive UnaryOperator where
  | minus
  | plus
  | not
deriving DecidableEq, Repr

inductive Term where
  | int (n : Int)
  | float (x : Float)
  | string (t : Text)
  | bool (b : Bool)
  /-- The items of the row. The offset is that of its name. -/
  | row (offset : Nat)
  | list (ts : List Term)
  | element (t index : Term)
  | property (t : Term) (name : Text)
  /-- A call. That of a method has the object as its first argument. -/
  | call (name : Text) (args : List Term)
  | unary (op : UnaryOperator) (t : Term)
  | binary (op : BinaryOperator) (lhs rhs : Term)

namespace BinaryOperator

def strength : BinaryOperator → Nat
  | or => 1
  | and => 2
  | equal | notEqual => 3
  | isIn => 4
  | less | lessEqual | greater | greaterEqual => 5
  | plus | minus => 6
  | times | divide | modulo => 7
  | power => 8

/-- How tightly the right operand has to bind. -/
def rightStrength : BinaryOperator → Nat
  | power => strength power
  | op => strength op + 1

def ofSymbol? : Symbol → Option BinaryOperator
  | .disjunction => some or
  | .conjunction => some and
  | .equal => some equal
  | .notEqual => some notEqual
  | .less => some less
  | .lessEqual => some lessEqual
  | .greater => some greater
  | .greaterEqual => some greaterEqual
  | .plus => some plus
  | .minus => some minus
  | .times => some times
  | .divide => some divide
  | .modulo => some modulo
  | .power => some power
  | _ => none

def ofToken? : Token → Option BinaryOperator
  | .symbol s => ofSymbol? s
  | .word t => if t = inWord then some isIn else none
  | _ => none

end BinaryOperator

abbrev Tokens := List PlacedToken

/-- A result and the tokens after it, which are fewer than `ts`. -/
abbrev Step (α : Type) (ts : Tokens) := { r : α × Tokens // r.2.length < ts.length }

/-- A result and the tokens after it, which are no more than `ts`. -/
abbrev Rest (α : Type) (ts : Tokens) := { r : α × Tokens // r.2.length ≤ ts.length }

/-- The fault of meeting these tokens. -/
def unexpected (stop : Nat) : Tokens → ScriptFault
  | [] => ⟨.unexpectedEnd, stop⟩
  | t :: _ => ⟨.unexpectedToken, t.offset⟩

def rowName : Text := "row".toList

/-- Words that are neither variables nor functions. -/
def reservedWords : List Text := [
  "if", "else", "while", "loop", "for", "in", "do", "until", "switch", "return", "break",
  "continue", "throw", "try", "catch", "let", "const", "fn", "private", "import", "export", "as",
  "global", "var", "static", "goto", "exit", "match", "case", "public", "protected", "new", "use",
  "with", "is", "module", "package", "super", "thread", "spawn", "go", "await", "async", "sync",
  "yield", "default", "void", "null", "nil", "begin", "end", "shared", "then", "unless",
  "this"].map String.toList

/-- A sign becomes part of a literal, which stays whole when its negative is a word. -/
def signed (op : UnaryOperator) (t : Term) : Term :=
  match op, t with
  | .minus, .int n =>
    match Word.ofInt? (-n) with
    | some n => .int n
    | none => .float (-(Float.ofInt n))
  | .minus, .float x => .float (-x)
  | .plus, .int n => .int n
  | .plus, .float x => .float x
  | op, t => .unary op t

def unaryOperator? : Token → Option UnaryOperator
  | .symbol .minus => some .minus
  | .symbol .plus => some .plus
  | .symbol .bang => some .not
  | _ => none

/-- Whether a term is a literal that is no truth value. -/
def isOtherLiteral : Term → Bool
  | .int _ | .float _ | .string _ | .list _ => true
  | _ => false

/-- Applies an operator that stands at an offset. Those that combine truth values refuse other
literals. -/
def joined (op : BinaryOperator) (offset : Nat) (lhs rhs : Term) : Except ScriptFault Term :=
  if (op = .or ∨ op = .and) ∧ (isOtherLiteral lhs || isOtherLiteral rhs) then
    .error ⟨.notTruthValue, offset⟩
  else .ok (.binary op lhs rhs)

/-- Whether a term may be followed by an index. -/
def isIndexable : Term → Bool
  | .int _ | .float _ | .bool _ => false
  | _ => true

mutual

/-- A term whose operators bind at least as tightly as `least`. -/
def term (stop least : Nat) (ts : Tokens) : Except ScriptFault (Step Term ts) := do
  let ⟨(lhs, rest), (h : rest.length < ts.length)⟩ ← unary stop ts
  let ⟨(t, rest), h'⟩ ← operators stop least lhs rest
  return ⟨(t, rest), by simp at h h' ⊢; omega⟩
termination_by (ts.length, 3)

/-- The operators after a left operand that bind at least as tightly as `least`. -/
def operators (stop least : Nat) (lhs : Term) (ts : Tokens) : Except ScriptFault (Rest Term ts) :=
  match ts with
  | [] => .ok ⟨(lhs, []), by simp⟩
  | t :: ts =>
    match BinaryOperator.ofToken? t.token with
    | none => .ok ⟨(lhs, t :: ts), by simp⟩
    | some op =>
      if op.strength < least then .ok ⟨(lhs, t :: ts), by simp⟩
      else do
        let ⟨(rhs, rest), (h : rest.length < ts.length)⟩ ← term stop op.rightStrength ts
        let e ← joined op t.offset lhs rhs
        let ⟨(e, rest), h'⟩ ← operators stop least e rest
        return ⟨(e, rest), by simp at h h' ⊢; omega⟩
termination_by (ts.length, 0)

def unary (stop : Nat) (ts : Tokens) : Except ScriptFault (Step Term ts) :=
  match ts with
  | [] => .error ⟨.unexpectedEnd, stop⟩
  | t :: ts =>
    match unaryOperator? t.token with
    | some op => do
      let ⟨(e, rest), (h : rest.length < ts.length)⟩ ← unary stop ts
      return ⟨(signed op e, rest), by simp at h ⊢; omega⟩
    | none => do
      let ⟨(e, rest), (h : rest.length < (t :: ts).length)⟩ ← primary stop (t :: ts)
      let ⟨(e, rest), h'⟩ ← accesses stop e rest
      return ⟨(e, rest), by simp at h h' ⊢; omega⟩
termination_by (ts.length, 2)

def primary (stop : Nat) (ts : Tokens) : Except ScriptFault (Step Term ts) :=
  match ts with
  | [] => .error ⟨.unexpectedEnd, stop⟩
  | ⟨.int n, _⟩ :: ts => .ok ⟨(.int n, ts), by simp⟩
  | ⟨.float x, _⟩ :: ts => .ok ⟨(.float x, ts), by simp⟩
  | ⟨.string t, _⟩ :: ts => .ok ⟨(.string t, ts), by simp⟩
  | ⟨.symbol .lbracket, _⟩ :: ts => do
    let ⟨(items, rest), (h : rest.length < ts.length)⟩ ← terms stop .rbracket ts
    return ⟨(.list items, rest), by simp at h ⊢; omega⟩
  | ⟨.symbol .lparen, _⟩ :: ts => do
    let ⟨(e, rest), (h : rest.length < ts.length)⟩ ← term stop 0 ts
    match rest, h with
    | ⟨.symbol .rparen, _⟩ :: rest, h => return ⟨(e, rest), by simp at h ⊢; omega⟩
    | rest, _ => .error (unexpected stop rest)
  | ⟨.word name, offset⟩ :: ts =>
    if name = "true".toList then .ok ⟨(.bool true, ts), by simp⟩
    else if name = "false".toList then .ok ⟨(.bool false, ts), by simp⟩
    else if reservedWords.contains name then .error ⟨.reservedWord name, offset⟩
    else
      match ts with
      | ⟨.symbol .lparen, _⟩ :: ts => do
        let ⟨(args, rest), (h : rest.length < ts.length)⟩ ← terms stop .rparen ts
        return ⟨(.call name args, rest), by simp at h ⊢; omega⟩
      | ts =>
        if name = rowName then .ok ⟨(.row offset, ts), by simp⟩
        else .error ⟨.unknownVariable name, offset⟩
  | t :: _ => .error ⟨.unexpectedToken, t.offset⟩
termination_by (ts.length, 1)

/-- The elements, methods and properties that follow a term. -/
def accesses (stop : Nat) (e : Term) (ts : Tokens) : Except ScriptFault (Rest Term ts) :=
  match ts with
  | ⟨.symbol .lbracket, offset⟩ :: ts =>
    if isIndexable e then do
      let ⟨(index, rest), (h : rest.length < ts.length)⟩ ← term stop 0 ts
      match rest, h with
      | ⟨.symbol .rbracket, _⟩ :: rest, h => do
        have h : rest.length + 1 < ts.length := h
        let ⟨(e, after), h'⟩ ← accesses stop (.element e index) rest
        return ⟨(e, after), by simp at h' ⊢; omega⟩
      | rest, _ => .error (unexpected stop rest)
    else .error ⟨.notIndexable, offset⟩
  | ⟨.symbol .dot, _⟩ :: ⟨.word name, _⟩ :: ⟨.symbol .lparen, _⟩ :: ts => do
    let ⟨(args, rest), (h : rest.length < ts.length)⟩ ← terms stop .rparen ts
    let ⟨(e, after), h'⟩ ← accesses stop (.call name (e :: args)) rest
    return ⟨(e, after), by simp at h' ⊢; omega⟩
  | ⟨.symbol .dot, _⟩ :: ⟨.word name, _⟩ :: ts => do
    let ⟨(e, after), h'⟩ ← accesses stop (.property e name) ts
    return ⟨(e, after), by simp at h' ⊢; omega⟩
  | ⟨.symbol .dot, _⟩ :: ts => .error (unexpected stop ts)
  | ts => .ok ⟨(e, ts), by simp⟩
termination_by (ts.length, 0)

/-- Terms separated by commas up to a closing symbol, before which a comma may stand. -/
def terms (stop : Nat) (closing : Symbol) (ts : Tokens) :
    Except ScriptFault (Step (List Term) ts) :=
  match ts with
  | [] => .error ⟨.unexpectedEnd, stop⟩
  | t :: ts =>
    match t.token with
    | .symbol s =>
      if s = closing then .ok ⟨([], ts), by simp⟩ else termList stop closing (t :: ts)
    | _ => termList stop closing (t :: ts)
termination_by (ts.length, 5)

/-- One or more terms, separated by commas, up to a closing symbol. -/
def termList (stop : Nat) (closing : Symbol) (ts : Tokens) :
    Except ScriptFault (Step (List Term) ts) := do
  let ⟨(e, rest), (h : rest.length < ts.length)⟩ ← term stop 0 ts
  match rest, h with
  | [], _ => .error ⟨.unexpectedEnd, stop⟩
  | t :: rest, h =>
    have h : rest.length + 1 < ts.length := h
    match t.token with
    | .symbol .comma => do
      let ⟨(es, after), h'⟩ ← terms stop closing rest
      return ⟨(e :: es, after), by simp at h' ⊢; omega⟩
    | .symbol s =>
      if s = closing then return ⟨([e], rest), by simp; omega⟩
      else .error ⟨.unexpectedToken, t.offset⟩
    | _ => .error ⟨.unexpectedToken, t.offset⟩
termination_by (ts.length, 4)

end

def Term.read (script : Text) : Except ScriptFault Term := do
  let ts ← readTokens false 0 script
  let ⟨(e, rest), _⟩ ← term (Text.byteSize script) 0 ts
  match rest with
  | [] => return e
  | _ => .error (unexpected (Text.byteSize script) rest)

end Rollup.Script
