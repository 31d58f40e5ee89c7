import Rollup.Proofs.Formula.Resolving
import Rollup.Proofs.Formula.Scanning

/-! # Printed formulas read back

The text of a resolved tree has the tokens of its tree, and they stand for a tree that resolves to
the same one again, except that a negative literal in front of a power loses its parentheses and
that infinite literals become names.
-/

namespace Rollup.Expr

open Formula Number

/-! ## Tokens of the printed text -/

def nanName : Text := "NaN".toList

def infinityName : Text := "inf".toList

def literalTokens (n : Float) : List Token :=
  if n.isFinite then if isNegative n then [.minus, .number (-n)] else [.number n]
  else if n.isNaN then [.name nanName]
  else if isNegative n then [.minus, .name infinityName] else [.name infinityName]

def wrapped (needed : Bool) (l : List Token) : List Token :=
  if needed then .lparen :: (l ++ [.rparen]) else l

def operatorToken : Operator → Token
  | .add => .plus
  | .sub => .minus
  | .mul => .star
  | .div => .slash
  | .pow => .caret

theorem symbol?_symbol (op : Operator) :
    Token.symbol? op.symbol = some (operatorToken op) := by
  cases op <;> rfl

/-- How tightly the left operand must bind to need no parentheses. -/
def leftStrength : Operator → ℕ
  | .add | .sub => 1
  | .mul | .div => 2
  | .pow => 5

/-- How tightly the right operand must bind to need no parentheses. -/
def rightStrength : Operator → ℕ
  | .add | .sub => 2
  | .mul | .div => 3
  | .pow => 4

mutual

def tokens : Expr → List Token
  | number n => literalTokens n
  | name t quoted => if quoted then [.quoted t] else [.name t]
  | column p => if p = blockPosition then [.name blockName] else [.dollar p]
  | neg e => .minus :: wrapped (e.strength < negStrength) e.tokens
  | binary op lhs rhs =>
    wrapped (lhs.strength < leftStrength op) lhs.tokens ++ operatorToken op ::
      wrapped (rhs.strength < rightStrength op) rhs.tokens
  | call f args => .name f.name :: .lparen :: (tokensOfAll args ++ [.rparen])

def tokensOfAll : List Expr → List Token
  | [] => []
  | [e] => e.tokens
  | e :: es => e.tokens ++ .comma :: tokensOfAll es

end

theorem print_binary (op : Operator) (lhs rhs : Expr) : (binary op lhs rhs).print =
    parenthesize (lhs.strength < leftStrength op) lhs.print ++ op.symbol ::
      parenthesize (rhs.strength < rightStrength op) rhs.print := by
  cases op <;> rfl

theorem print_call (f : Function) (args : List Expr) :
    (call f args).print = f.name ++ '(' :: (printArguments args ++ [')']) := by
  simp [print]

theorem scans_literal (n : Float) : Scans (shortest n) (literalTokens n) := by
  unfold literalTokens
  split
  case isTrue hfinite =>
    obtain ⟨whole, fraction, y, htext, hdecimal, hvalue, hn⟩ := exists_shortest hfinite
    rw [htext]
    split
    case isTrue hnegative =>
      rw [hnegative] at hn ⊢
      have hy : -n = y := by
        rw [hn]
        exact neg_neg_eq y
      rw [hy]
      exact .symbol rfl (.number hdecimal hvalue)
    case isFalse hnegative =>
      rw [Bool.not_eq_true] at hnegative
      rw [hnegative] at hn ⊢
      rw [show n = y from hn]
      exact .number hdecimal hvalue
  case isFalse hfinite =>
    rw [shortest, if_neg hfinite, nonFiniteText]
    split
    · exact .name rfl
    · change Scans (signText (isNegative n) ++ infinityName) _
      split
      case isTrue hnegative =>
        rw [hnegative]
        exact .symbol rfl (.name rfl)
      case isFalse hnegative =>
        rw [Bool.not_eq_true] at hnegative
        rw [hnegative]
        exact .name rfl

theorem scans_parenthesize {t : Text} {l : List Token} (h : Scans t l) (needed : Bool) :
    Scans (parenthesize needed t) (wrapped needed l) := by
  cases needed with
  | false => exact h
  | true => exact .symbol rfl (h.append_symbol rfl .nil)

theorem isName_name (f : Function) : isName f.name := by
  have h : ∀ f ∈ Function.all, isName f.name := by decide
  exact h f f.mem_all

variable {width : ℕ}

mutual

theorem scans_print : ∀ {e : Expr}, e.Resolved width → Scans e.print e.tokens
  | number n, _ => scans_literal n
  | column p, _ => by
    rw [print, tokens]
    split
    · exact .name rfl
    · exact .dollar p
  | neg e, h => .symbol rfl (scans_parenthesize (scans_print h.2) _)
  | binary op lhs rhs, h => by
    rw [print_binary]
    exact (scans_parenthesize (scans_print h.1) _).append_symbol (symbol?_symbol op)
      (scans_parenthesize (scans_print h.2) _)
  | call f args, h => by
    rw [print_call]
    exact (Scans.name (isName_name f)).append_symbol rfl
      ((scans_printArguments h.2).append_symbol rfl .nil)

theorem scans_printArguments : ∀ {args : List Expr}, FormedAll False (· ≤ width) args →
    Scans (printArguments args) (tokensOfAll args)
  | [], _ => .nil
  | [_], h => scans_print h.1
  | _ :: _ :: _, h => (scans_print h.1).append_symbol rfl (scans_printArguments h.2)

end

/-! ## The tree of the tokens -/

/-- A literal whose text starts with a minus. -/
def isNegativeLiteral : Expr → Bool
  | number n => !n.isNaN && isNegative n
  | _ => false

/-- What the text of a literal without its minus is read as. -/
def unsigned : Expr → Expr
  | number n => if n.isFinite then number (-n) else name infinityName false
  | e => e

def rereadLiteral (n : Float) : Expr :=
  if n.isFinite then number n
  else if n.isNaN then name nanName false
  else if isNegative n then neg (name infinityName false) else name infinityName false

mutual

/-- What the text of a tree is read as. -/
def reread : Expr → Expr
  | number n => rereadLiteral n
  | name t quoted => name t quoted
  | column p => name (if p = blockPosition then blockName else '$' :: Text.ofNat p) false
  | neg e => neg e.reread
  | binary op lhs rhs =>
    -- the minus applies to the power and not only to its base
    if op = .pow ∧ lhs.isNegativeLiteral then neg (binary .pow lhs.unsigned rhs.reread)
    else binary op lhs.reread rhs.reread
  | call f args => call f (rereadAll args)

def rereadAll : List Expr → List Expr
  | [] => []
  | e :: es => e.reread :: rereadAll es

end

theorem length_rereadAll (es : List Expr) : (rereadAll es).length = es.length := by
  induction es with
  | nil => rfl
  | cons e es ih => simp [rereadAll, ih]

/-- The productions that a tree of a strength comes from. -/
structure IsLevel (s : ℕ) (l : List Token) (e : Expr) : Prop where
  expr : IsExpr l e
  term : 2 ≤ s → IsTerm l e
  unary : 3 ≤ s → IsUnary l e
  primary : 5 ≤ s → IsPrimary l e

namespace IsLevel

variable {s k : ℕ} {l : List Token} {e : Expr}

theorem mono (h : IsLevel s l e) (hk : k ≤ s) : IsLevel k l e :=
  ⟨h.expr, fun h2 => h.term (h2.trans hk), fun h3 => h.unary (h3.trans hk),
    fun h5 => h.primary (h5.trans hk)⟩

theorem of_expr (h : IsExpr l e) : IsLevel 1 l e :=
  ⟨h, fun hs => by omega, fun hs => by omega, fun hs => by omega⟩

theorem of_term (h : IsTerm l e) : IsLevel 2 l e :=
  ⟨.term h, fun _ => h, fun hs => by omega, fun hs => by omega⟩

theorem of_unary (h : IsUnary l e) : IsLevel 4 l e :=
  ⟨.term (.unary h), fun _ => .unary h, fun _ => h, fun hs => by omega⟩

theorem of_primary (h : IsPrimary l e) : IsLevel s l e :=
  have hunary : IsUnary l e := .power (.primary h)
  ⟨.term (.unary hunary), fun _ => .unary hunary, fun _ => hunary, fun _ => h⟩

end IsLevel

/-- The strength of the text, in which a negative literal is a minus and a literal. -/
def level (e : Expr) : ℕ := if e.isNegativeLiteral then negStrength else e.strength

theorem isLevel_wrapped {e x : Expr} {l : List Token} {k : ℕ} (h : IsLevel e.level l x)
    (hk : e.isNegativeLiteral → k ≤ 4) : IsLevel k (wrapped (e.strength < k) l) x := by
  by_cases hstrength : e.strength < k
  · rw [decide_eq_true hstrength]
    exact .of_primary (.parens h.expr)
  · rw [decide_eq_false hstrength]
    change IsLevel k l x
    unfold level at h
    split at h
    case isTrue hliteral => exact (IsLevel.of_unary (h.unary le_rfl)).mono (hk hliteral)
    case isFalse => exact h.mono (Nat.not_lt.mp hstrength)

theorem isLevel_literal (n : Float) :
    IsLevel (level (number n)) (literalTokens n) (rereadLiteral n) := by
  have hlevel : level (number n) = if !n.isNaN && isNegative n then negStrength else atomStrength :=
    rfl
  unfold literalTokens rereadLiteral
  by_cases hfinite : n.isFinite
  · rw [hlevel, if_pos hfinite, if_pos hfinite, isNaN_of_isFinite hfinite]
    cases isNegative n with
    | true =>
      have h : IsUnary [.minus, .number (-n)] (number (- -n)) :=
        .minus (.power (.primary (.number _)))
      rw [neg_neg_eq] at h
      exact (IsLevel.of_unary h).mono (by decide)
    | false => exact .of_primary (.number n)
  · rw [hlevel, if_neg hfinite, if_neg hfinite]
    cases n.isNaN with
    | true => exact .of_primary (.name nanName)
    | false =>
      cases isNegative n with
      | true =>
        have h : IsUnary [.minus, .name infinityName] (neg (name infinityName false)) :=
          .minus (.power (.primary (.name _)))
        exact (IsLevel.of_unary h).mono (by decide)
      | false => exact .of_primary (.name infinityName)

/-- A negative literal is a minus in front of the literal without it. -/
theorem exists_of_isNegativeLiteral {e : Expr} (h : e.isNegativeLiteral) :
    ∃ l, e.tokens = .minus :: l ∧ IsPrimary l e.unsigned ∧ e.strength = atomStrength := by
  cases e with
  | number n =>
    simp only [isNegativeLiteral, Bool.and_eq_true, Bool.not_eq_true'] at h
    rw [tokens, unsigned, literalTokens, h.1, h.2]
    split
    · exact ⟨_, rfl, .number _, rfl⟩
    · exact ⟨_, rfl, .name _, rfl⟩
  | _ => cases h

theorem negated_reread {e : Expr} (h : e.asNumber? = none) : negated e.reread = neg e.reread := by
  cases e with
  | number n => cases h
  | binary op lhs rhs =>
    rw [reread]
    split <;> rfl
  | _ => rfl

theorem lookup?_name (f : Function) : Function.lookup? f.name = some f := by
  have h : ∀ f ∈ Function.all, Function.lookup? f.name = some f := by decide
  exact h f f.mem_all

theorem isPower_binary {lhs rhs x y : Expr} (hneg : lhs.isNegativeLiteral = false)
    (hl : IsLevel lhs.level lhs.tokens x) (hr : IsLevel rhs.level rhs.tokens y) :
    IsPower (binary .pow lhs rhs).tokens (binary .pow x y) := by
  have hbase := isLevel_wrapped (k := 5) hl (by simp [hneg])
  have hexponent := isLevel_wrapped (k := 4) hr fun _ => le_rfl
  exact .power (hbase.primary le_rfl) (hexponent.unary (by omega))

/-- The minus of a negative literal is read before the power that the literal is the base of. -/
theorem isUnary_binary {lhs rhs y : Expr} (hneg : lhs.isNegativeLiteral)
    (hr : IsLevel rhs.level rhs.tokens y) :
    IsUnary (binary .pow lhs rhs).tokens (neg (binary .pow lhs.unsigned y)) := by
  obtain ⟨l, hl, hbase, hstrength⟩ := exists_of_isNegativeLiteral hneg
  have hexponent := isLevel_wrapped (k := 4) hr fun _ => le_rfl
  rw [tokens, hl, hstrength]
  exact .minus (.power (.power hbase (hexponent.unary (by omega))))

theorem isTerm_binary {op : Operator} {lhs rhs x y : Expr}
    (hop : productOperator? (operatorToken op) = some op) (hleft : leftStrength op = 2)
    (hright : rightStrength op = 3) (hl : IsLevel lhs.level lhs.tokens x)
    (hr : IsLevel rhs.level rhs.tokens y) :
    IsTerm (binary op lhs rhs).tokens (binary op x y) := by
  have hlhs := isLevel_wrapped (k := 2) hl fun _ => by omega
  have hrhs := isLevel_wrapped (k := 3) hr fun _ => by omega
  rw [tokens, hleft, hright]
  exact .product (hlhs.term le_rfl) hop (hrhs.unary le_rfl)

theorem isExpr_binary {op : Operator} {lhs rhs x y : Expr}
    (hop : sumOperator? (operatorToken op) = some op) (hleft : leftStrength op = 1)
    (hright : rightStrength op = 2) (hl : IsLevel lhs.level lhs.tokens x)
    (hr : IsLevel rhs.level rhs.tokens y) :
    IsExpr (binary op lhs rhs).tokens (binary op x y) := by
  have hlhs := isLevel_wrapped (k := 1) hl fun _ => by omega
  have hrhs := isLevel_wrapped (k := 2) hr fun _ => by omega
  rw [tokens, hleft, hright]
  exact .sum hlhs.expr hop (hrhs.term le_rfl)

theorem isLevel_binary {op : Operator} {lhs rhs : Expr}
    (hl : IsLevel lhs.level lhs.tokens lhs.reread) (hr : IsLevel rhs.level rhs.tokens rhs.reread) :
    IsLevel (operatorStrength op) (binary op lhs rhs).tokens (binary op lhs rhs).reread := by
  rw [reread]
  cases op with
  | add => exact .of_expr (isExpr_binary rfl rfl rfl hl hr)
  | sub => exact .of_expr (isExpr_binary rfl rfl rfl hl hr)
  | mul => exact .of_term (isTerm_binary rfl rfl rfl hl hr)
  | div => exact .of_term (isTerm_binary rfl rfl rfl hl hr)
  | pow =>
    by_cases hneg : lhs.isNegativeLiteral
    · rw [if_pos ⟨rfl, hneg⟩]
      exact .of_unary (isUnary_binary hneg hr)
    · rw [if_neg fun h => hneg h.2]
      exact .of_unary (.power (isPower_binary (by simpa using hneg) hl hr))

theorem isArguments_tokens {args : List Expr}
    (h : args ≠ [] → IsArgumentList (tokensOfAll args) (rereadAll args)) :
    IsArguments (tokensOfAll args) (rereadAll args) := by
  cases args with
  | nil => exact .none
  | cons e es => exact .some (h (by simp))

mutual

theorem isLevel_tokens : ∀ {e : Expr}, e.Resolved width → IsLevel e.level e.tokens e.reread
  | number n, _ => isLevel_literal n
  | column p, _ => by
    rw [tokens, reread]
    split
    · exact .of_primary (.name blockName)
    · exact .of_primary (.dollar p)
  | neg e, h => by
    have hoperand := isLevel_wrapped (k := 3) (isLevel_tokens h.2) fun _ => by omega
    have hminus := IsUnary.minus (hoperand.unary le_rfl)
    rw [negated_reread h.1] at hminus
    exact (IsLevel.of_unary hminus).mono (Nat.le_succ negStrength)
  | binary op lhs rhs, h => isLevel_binary (isLevel_tokens h.1) (isLevel_tokens h.2)
  | call f args, h => by
    have hargs := isArguments_tokens fun hne => isArgumentList_tokens hne h.2
    refine .of_primary (.call (lookup?_name f) hargs ?_)
    rw [length_rereadAll]
    exact h.1

theorem isArgumentList_tokens : ∀ {args : List Expr}, args ≠ [] →
    FormedAll False (· ≤ width) args → IsArgumentList (tokensOfAll args) (rereadAll args)
  | [], hne, _ => absurd rfl hne
  | [_], _, h => .one (isLevel_tokens h.1).expr
  | _ :: _ :: _, _, h => .cons (isLevel_tokens h.1).expr (isArgumentList_tokens (by simp) h.2)

end

end Rollup.Expr
