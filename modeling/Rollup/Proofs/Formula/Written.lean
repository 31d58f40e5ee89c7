import Rollup.Proofs.Formula.Printing
import Rollup.Proofs.Text.Class

/-! # Operations that are written out

An operation on texts is kept as a text that is put together from the texts of its operands. The
text of an operation on names stands for that operation again, except that an operand without a
blank gets no parentheses: a minus in front of a base is read as a minus in front of the power.
-/

namespace Rollup

open Formula
open Rollup.Expr (parenthesize wrapped operatorToken)

/-! ## Letters -/

theorem Token.symbol?_of_isAlphabetic {c : Char} (h : Text.isAlphabetic c) : symbol? c = none := by
  have hall : symbols.all fun c => !Text.isAlphabetic c := rfl
  cases hsymbol : symbol? c with
  | none => rfl
  | some token =>
    have hnot := List.all_eq_true.mp hall c (mem_symbols hsymbol)
    rw [h] at hnot
    cases hnot

/-- A word of letters is a name. -/
theorem isName_of_isAlphabetic {t : Text} (hne : t ≠ []) (h : ∀ c ∈ t, Text.isAlphabetic c) :
    isName t := by
  cases t with
  | nil => exact absurd rfl hne
  | cons c t =>
    obtain ⟨hc, ht⟩ := List.forall_mem_cons.mp h
    have hpart : t.all Token.isNamePart :=
      List.all_eq_true.mpr fun d hd => by simp [Token.isNamePart, ht d hd]
    simp [isName, Token.isNameStart, hc, hpart, Text.not_isWhite_of_isAlphabetic hc,
      Text.not_isDigit_of_isAlphabetic hc, Token.symbol?_of_isAlphabetic hc,
      Text.ne_of_isAlphabetic hc (d := '\'') rfl, Text.ne_of_isAlphabetic hc (d := '"') rfl,
      Text.ne_of_isAlphabetic hc (d := '$') rfl, Text.ne_of_isAlphabetic hc (d := '.') rfl]

/-! ## Operations on names -/

/-- An operation on names, which stand for texts. -/
inductive Operation where
  | name (t : Text)
  | neg (o : Operation)
  | binary (op : Operator) (lhs rhs : Operation)
deriving DecidableEq

namespace Operation

/-- The value of the operation on the texts, one operator after the other. -/
def value : Operation → Value
  | name t => .text t
  | neg o => o.value.negate
  | binary op lhs rhs => .combine op lhs.value rhs.value

/-- The formula of the operation. -/
def expr : Operation → Expr
  | name t => .name t false
  | neg o => .neg o.expr
  | binary op lhs rhs => .binary op lhs.expr rhs.expr

def names : Operation → List Text
  | name t => [t]
  | neg o => o.names
  | binary _ lhs rhs => lhs.names ++ rhs.names

/-- Whether two operands are combined somewhere, which is where blanks are written. -/
def isCombined : Operation → Bool
  | name _ => false
  | neg o => o.isCombined
  | binary .. => true

/-- A name with a minus, or more than one. -/
def isNegatedName : Operation → Bool
  | neg o => !o.isCombined
  | _ => false

/-- Whether a name with a minus is the base of a power. -/
def hasNegatedBase : Operation → Bool
  | name _ => false
  | neg o => o.hasNegatedBase
  | binary op lhs rhs =>
    op = .pow && lhs.isNegatedName || lhs.hasNegatedBase || rhs.hasNegatedBase

/-! ## The text of an operation -/

def text : Operation → Text
  | name t => t
  | neg o => '-' :: parenthesize o.isCombined o.text
  | binary op lhs rhs => parenthesize lhs.isCombined lhs.text ++ ' ' :: op.symbol :: ' ' ::
      parenthesize rhs.isCombined rhs.text

variable {o : Operation}

theorem contains_parenthesize (needed : Bool) (t : Text) :
    Text.contains ' ' (parenthesize needed t) = Text.contains ' ' t := by
  cases needed <;> simp [parenthesize, Text.contains]

theorem contains_text (h : ∀ t ∈ o.names, Text.contains ' ' t = false) :
    Text.contains ' ' o.text = o.isCombined := by
  induction o with
  | name t => exact h t List.mem_cons_self
  | neg o ih =>
    rw [isCombined, ← ih h, ← contains_parenthesize o.isCombined o.text]
    rfl
  | binary op lhs rhs => simp [text, Text.contains, isCombined]

/-- An operand is put in parentheses for a blank, and the names bring none. -/
theorem operandText_text (h : ∀ t ∈ o.names, Text.contains ' ' t = false) :
    (Value.text o.text).operandText = parenthesize o.isCombined o.text := by
  rw [← contains_text h]
  rfl

theorem value_eq (h : ∀ t ∈ o.names, Text.contains ' ' t = false) : o.value = .text o.text := by
  induction o with
  | name t => rfl
  | neg o ih =>
    rw [value, ih h, text, ← operandText_text (o := o) h]
    rfl
  | binary op lhs rhs ihl ihr =>
    obtain ⟨hl, hr⟩ := List.forall_mem_append.mp h
    rw [value, ihl hl, ihr hr, text, ← operandText_text hl, ← operandText_text hr]
    change Value.text _ = Value.text _
    simp

/-! ## The tokens of the text -/

def tokens : Operation → List Token
  | name t => [.name t]
  | neg o => .minus :: wrapped o.isCombined o.tokens
  | binary op lhs rhs => wrapped lhs.isCombined lhs.tokens ++ operatorToken op ::
      wrapped rhs.isCombined rhs.tokens

/-- The text is empty or starts with a character that is no part of a name. -/
def EndsWord (rest : Text) : Prop := ∀ c ∈ rest.head?, Token.isNamePart c = false

/-- The tokens of a piece of text, before anything that does not go on with a name. -/
def Spells (t : Text) (l : List Token) : Prop :=
  ∀ rest, EndsWord rest → tokens? (t ++ rest) = (tokens? rest).map (l ++ ·)

theorem endsWord_cons {c : Char} (h : Token.isNamePart c = false) (t : Text) : EndsWord (c :: t) := by
  rintro d ⟨⟩
  exact h

theorem spells_name {t : Text} (h : isName t) : Spells t [.name t] := by
  intro rest hrest
  cases t with
  | nil => cases h
  | cons c t => exact tokens?_of_scan_append (isWhite_of_isName h) (scan_name h hrest) rfl

section Spells

variable {c : Char} {s t : Text} {token : Token} {l r : List Token}

theorem Spells.symbol (hc : Token.symbol? c = some token) (ht : Spells t l) :
    Spells (c :: t) (token :: l) := by
  intro rest hrest
  rw [List.cons_append, tokens?_of_symbol hc, ht rest hrest]
  simp [Function.comp_def]

theorem Spells.parenthesize (ht : Spells t l) (needed : Bool) :
    Spells (parenthesize needed t) (wrapped needed l) := by
  cases needed with
  | false => exact ht
  | true =>
    refine .symbol rfl fun rest hrest => ?_
    have hparen : EndsWord (')' :: rest) := endsWord_cons rfl rest
    change tokens? ((t ++ [')']) ++ rest) = _
    rw [List.append_assoc, List.singleton_append, ht _ hparen, tokens?_of_symbol rfl]
    simp [Function.comp_def]

/-- An operator between blanks. -/
theorem Spells.operator (hs : Spells s l) (hc : Token.symbol? c = some token) (ht : Spells t r) :
    Spells (s ++ ' ' :: c :: ' ' :: t) (l ++ token :: r) := by
  intro rest hrest
  have hblank : Text.isWhite ' ' := rfl
  have hword : Token.isNamePart ' ' = false := rfl
  simp only [List.append_assoc, List.cons_append]
  rw [hs _ (endsWord_cons hword _), tokens?_of_white hblank, tokens?_of_symbol hc,
    tokens?_of_white hblank, ht rest hrest]
  simp [Function.comp_def]

end Spells

theorem spells_text (h : ∀ t ∈ o.names, isName t) : Spells o.text o.tokens := by
  induction o with
  | name t => exact spells_name (h t List.mem_cons_self)
  | neg o ih => exact .symbol rfl ((ih h).parenthesize _)
  | binary op lhs rhs ihl ihr =>
    obtain ⟨hl, hr⟩ := List.forall_mem_append.mp h
    exact ((ihl hl).parenthesize _).operator (Expr.symbol?_symbol op) ((ihr hr).parenthesize _)

/-! ## The tree of the tokens -/

/-- Applies a function to what stands behind the minus signs of a tree. -/
def behindSigns (f : Expr → Expr) : Expr → Expr
  | .neg e => .neg (behindSigns f e)
  | e => f e

/-- What the text of an operation is read as. -/
def reread : Operation → Expr
  | name t => .name t false
  | neg o => .neg o.reread
  | binary op lhs rhs =>
    if op = .pow ∧ lhs.isNegatedName then
      behindSigns (fun base => .binary .pow base rhs.reread) lhs.expr
    else .binary op lhs.reread rhs.reread

theorem asNumber?_behindSigns {f : Expr → Expr} (hf : ∀ e, (f e).asNumber? = none) (e : Expr) :
    (behindSigns f e).asNumber? = none := by
  cases e with
  | neg e => rfl
  | _ => exact hf _

theorem asNumber?_reread (o : Operation) : o.reread.asNumber? = none := by
  cases o with
  | name t => rfl
  | neg o => rfl
  | binary op lhs rhs =>
    rw [reread]
    split
    · exact asNumber?_behindSigns (fun _ => rfl) _
    · rfl

theorem negated_of_asNumber? {e : Expr} (h : e.asNumber? = none) : negated e = .neg e := by
  cases e with
  | number n => cases h
  | _ => rfl

theorem isUnary_minus {l : List Token} {e : Expr} (h : IsUnary l e) (he : e.asNumber? = none) :
    IsUnary (.minus :: l) (.neg e) := by
  have hminus := IsUnary.minus h
  rwa [negated_of_asNumber? he] at hminus

theorem tokens_neg (h : (neg o).isCombined = false) : (neg o).tokens = .minus :: o.tokens := by
  rw [isCombined] at h
  rw [tokens, h]
  rfl

theorem isUnary_of_not_isCombined (h : o.isCombined = false) : IsUnary o.tokens o.reread := by
  induction o with
  | name t => exact .power (.primary (.name t))
  | neg o ih =>
    rw [tokens_neg h]
    exact isUnary_minus (ih h) o.asNumber?_reread
  | binary op lhs rhs => cases h

theorem isUnary_operand (h : IsExpr o.tokens o.reread) :
    IsUnary (wrapped o.isCombined o.tokens) o.reread := by
  cases hcombined : o.isCombined with
  | true => exact .power (.primary (.parens h))
  | false => exact isUnary_of_not_isCombined hcombined

theorem isPrimary_operand (hneg : o.isNegatedName = false) (h : IsExpr o.tokens o.reread) :
    IsPrimary (wrapped o.isCombined o.tokens) o.reread := by
  cases hcombined : o.isCombined with
  | true => exact .parens h
  | false =>
    cases o with
    | name t => exact .name t
    | neg o =>
      have hcombined : o.isCombined = false := hcombined
      simp [isNegatedName, hcombined] at hneg
    | binary op lhs rhs => cases hcombined

/-- The signs of a base are read before the power. -/
theorem isUnary_behindSigns (hcombined : o.isCombined = false) {r : List Token} {exponent : Expr}
    (hr : IsUnary r exponent) : IsUnary (o.tokens ++ .caret :: r)
      (behindSigns (fun base => .binary .pow base exponent) o.expr) := by
  induction o with
  | name t => exact .power (.power (.name t) hr)
  | neg o ih =>
    rw [tokens_neg hcombined]
    exact isUnary_minus (ih hcombined) (asNumber?_behindSigns (fun _ => rfl) _)
  | binary op lhs rhs => cases hcombined

theorem isCombined_of_isNegatedName (h : o.isNegatedName) : o.isCombined = false := by
  cases o with
  | neg o => simpa [isNegatedName, isCombined] using h
  | _ => cases h

theorem isExpr_tokens (o : Operation) : IsExpr o.tokens o.reread := by
  induction o with
  | name t => exact .term (.unary (.power (.primary (.name t))))
  | neg o ih => exact .term (.unary (isUnary_minus (isUnary_operand ih) o.asNumber?_reread))
  | binary op lhs rhs ihl ihr =>
    have hl := isUnary_operand ihl
    have hr := isUnary_operand ihr
    cases op with
    | add => exact .sum (.term (.unary hl)) rfl (.unary hr)
    | sub => exact .sum (.term (.unary hl)) rfl (.unary hr)
    | mul => exact .term (.product (.unary hl) rfl hr)
    | div => exact .term (.product (.unary hl) rfl hr)
    | pow =>
      rw [reread]
      split
      case isTrue hneg =>
        have hcombined := isCombined_of_isNegatedName hneg.2
        rw [tokens, hcombined]
        exact .term (.unary (isUnary_behindSigns hcombined hr))
      case isFalse hneg =>
        have hbase : lhs.isNegatedName = false := by simpa using hneg
        exact .term (.unary (.power (.power (isPrimary_operand hbase ihl) hr)))

theorem read_text (h : ∀ t ∈ o.names, isName t) : Expr.read o.text = .ok o.reread := by
  have htokens := spells_text h [] (by simp [EndsWord])
  rw [List.append_nil] at htokens
  exact read_of_tokens? (by simpa using htokens) o.isExpr_tokens

/-! ## The same operation -/

theorem reread_eq_expr_iff : o.reread = o.expr ↔ o.hasNegatedBase = false := by
  induction o with
  | name t => exact iff_of_true rfl rfl
  | neg o ih => rw [reread, expr, hasNegatedBase, Expr.neg.injEq, ih]
  | binary op lhs rhs ihl ihr =>
    rw [reread, expr, hasNegatedBase]
    split
    case isTrue hneg =>
      obtain ⟨rfl, hneg⟩ := hneg
      cases lhs with
      | neg o => simp [behindSigns, expr, hneg]
      | _ => cases hneg
    case isFalse hneg =>
      have hbase : (op = .pow && lhs.isNegatedName) = false := by simpa using hneg
      rw [hbase, Expr.binary.injEq, ihl, ihr]
      simp

theorem contains_of_isAlphabetic {t : Text} (h : ∀ c ∈ t, Text.isAlphabetic c) :
    Text.contains ' ' t = false := by
  simp only [Text.contains, List.any_eq_false, beq_iff_eq]
  exact fun c hc => Text.ne_of_isAlphabetic (h c hc) rfl

/-- The text that an operation on words is kept as is read as this operation exactly when no power
of it has a word with a minus as its base. -/
theorem read_value_iff (h : ∀ word ∈ o.names, word ≠ [] ∧ ∀ c ∈ word, Text.isAlphabetic c) :
    ∃ t, o.value = .text t ∧ (Expr.read t = .ok o.expr ↔ o.hasNegatedBase = false) := by
  have hvalue := value_eq fun word hword => contains_of_isAlphabetic (h word hword).2
  have hread := read_text fun word hword => isName_of_isAlphabetic (h word hword).1 (h word hword).2
  refine ⟨o.text, hvalue, ?_⟩
  rw [hread, ← reread_eq_expr_iff, Except.ok.injEq]

/-- Two operators of each strength are nested to both sides, and a minus stands in front of an
exponent and of operations. -/
theorem read_value_nested :
    let o : Operation := .binary .pow (.neg (.binary .sub (.name ['a']) (.binary .add (.name ['b'])
      (.name ['c'])))) (.neg (.neg (.binary .div (.binary .mul (.name ['é']) (.name ['b']))
        (.binary .pow (.name ['b', 'é']) (.neg (.name ['a']))))))
    (∀ word ∈ o.names, word ≠ [] ∧ ∀ c ∈ word, Text.isAlphabetic c) ∧ o.hasNegatedBase = false ∧
      o.value = .text "(-(a - (b + c))) ^ (-(-((é * b) / (bé ^ -a))))".toList ∧
      Expr.read "(-(a - (b + c))) ^ (-(-((é * b) / (bé ^ -a))))".toList = .ok o.expr := by
  intro o
  have hwords : ∀ word ∈ o.names, word ≠ [] ∧ ∀ c ∈ word, Text.isAlphabetic c := by
    have ha : Text.isAlphabetic 'a' := rfl
    have hb : Text.isAlphabetic 'b' := rfl
    have hc : Text.isAlphabetic 'c' := rfl
    have he : Text.isAlphabetic 'é' := rfl
    simp [o, names, ha, hb, hc, he]
  have hvalue : o.value = .text "(-(a - (b + c))) ^ (-(-((é * b) / (bé ^ -a))))".toList := rfl
  obtain ⟨t, ht, hread⟩ := read_value_iff hwords
  cases hvalue.symm.trans ht
  exact ⟨hwords, rfl, hvalue, hread.mpr rfl⟩

/-- The power of a negated word is read as the negation of a power. -/
theorem read_value_negated_base :
    let o : Operation := .binary .pow (.neg (.name ['a'])) (.name ['b'])
    (∀ word ∈ o.names, word ≠ [] ∧ ∀ c ∈ word, Text.isAlphabetic c) ∧
      o.value = .text "-a ^ b".toList ∧
      Expr.read "-a ^ b".toList =
        .ok (.neg (.binary .pow (.name ['a'] false) (.name ['b'] false))) ∧
      Expr.read "-a ^ b".toList ≠ .ok o.expr := by
  intro o
  have hwords : ∀ word ∈ o.names, word ≠ [] ∧ ∀ c ∈ word, Text.isAlphabetic c := by
    have ha : Text.isAlphabetic 'a' := rfl
    have hb : Text.isAlphabetic 'b' := rfl
    simp [o, names, ha, hb]
  have hread : Expr.read "-a ^ b".toList =
      .ok (.neg (.binary .pow (.name ['a'] false) (.name ['b'] false))) :=
    read_text fun word hword => isName_of_isAlphabetic (hwords word hword).1 (hwords word hword).2
  refine ⟨hwords, rfl, hread, ?_⟩
  rw [hread]
  rintro ⟨⟩

end Operation

end Rollup
