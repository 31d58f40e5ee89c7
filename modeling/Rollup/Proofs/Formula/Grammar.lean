import Mathlib.Data.List.Basic
import Rollup.Formula.Parser

/-! # The grammar of formulas

Which trees a list of tokens stands for, production by production. Reading finds the tree of a list
that has one.
-/

namespace Rollup.Formula

mutual

inductive IsExpr : List Token → Expr → Prop
  | term {l : List Token} {e : Expr} (h : IsTerm l e) : IsExpr l e
  | sum {l r : List Token} {t : Token} {op : Operator} {lhs rhs : Expr} (hl : IsExpr l lhs)
      (ht : sumOperator? t = some op) (hr : IsTerm r rhs) :
      IsExpr (l ++ t :: r) (.binary op lhs rhs)

inductive IsTerm : List Token → Expr → Prop
  | unary {l : List Token} {e : Expr} (h : IsUnary l e) : IsTerm l e
  | product {l r : List Token} {t : Token} {op : Operator} {lhs rhs : Expr} (hl : IsTerm l lhs)
      (ht : productOperator? t = some op) (hr : IsUnary r rhs) :
      IsTerm (l ++ t :: r) (.binary op lhs rhs)

inductive IsUnary : List Token → Expr → Prop
  | minus {l : List Token} {e : Expr} (h : IsUnary l e) : IsUnary (.minus :: l) (negated e)
  | plus {l : List Token} {e : Expr} (h : IsUnary l e) : IsUnary (.plus :: l) e
  | power {l : List Token} {e : Expr} (h : IsPower l e) : IsUnary l e

inductive IsPower : List Token → Expr → Prop
  | primary {l : List Token} {e : Expr} (h : IsPrimary l e) : IsPower l e
  | power {l r : List Token} {base exponent : Expr} (hl : IsPrimary l base)
      (hr : IsUnary r exponent) : IsPower (l ++ .caret :: r) (.binary .pow base exponent)

inductive IsPrimary : List Token → Expr → Prop
  | number (n : Float) : IsPrimary [.number n] (.number n)
  | name (t : Text) : IsPrimary [.name t] (.name t false)
  | quoted (t : Text) : IsPrimary [.quoted t] (.name t true)
  | dollar (n : Nat) : IsPrimary [.dollar n] (.name ('$' :: Text.ofNat n) false)
  | call {t : Text} {f : Function} {l : List Token} {args : List Expr}
      (hf : Function.lookup? t = some f) (h : IsArguments l args)
      (harity : f.arity.accepts args.length) :
      IsPrimary (.name t :: .lparen :: (l ++ [.rparen])) (.call f args)
  | parens {l : List Token} {e : Expr} (h : IsExpr l e) : IsPrimary (.lparen :: (l ++ [.rparen])) e

inductive IsArguments : List Token → List Expr → Prop
  | none : IsArguments [] []
  | some {l : List Token} {args : List Expr} (h : IsArgumentList l args) : IsArguments l args

inductive IsArgumentList : List Token → List Expr → Prop
  | one {l : List Token} {e : Expr} (h : IsExpr l e) : IsArgumentList l [e]
  | cons {l r : List Token} {e : Expr} {args : List Expr} (hl : IsExpr l e)
      (hr : IsArgumentList r args) : IsArgumentList (l ++ .comma :: r) (e :: args)

end

/-! ## Reading a list that stands for a tree -/

def kinds (ts : Tokens) : List Token := ts.map PlacedToken.token

@[simp] theorem kinds_nil : kinds [] = [] := rfl

@[simp] theorem kinds_cons (t : PlacedToken) (ts : Tokens) :
    kinds (t :: ts) = t.token :: kinds ts := rfl

@[simp] theorem kinds_append (ts us : Tokens) : kinds (ts ++ us) = kinds ts ++ kinds us :=
  List.map_append

theorem kinds_eq_append {ts : Tokens} {l r : List Token} (h : kinds ts = l ++ r) :
    ∃ ls rs, ts = ls ++ rs ∧ kinds ls = l ∧ kinds rs = r := List.map_eq_append_iff.mp h

theorem kinds_eq_cons {ts : Tokens} {t : Token} {l : List Token} (h : kinds ts = t :: l) :
    ∃ offset us, ts = ⟨t, offset⟩ :: us ∧ kinds us = l := by
  obtain ⟨⟨_, offset⟩, us, rfl, rfl, rfl⟩ := List.map_eq_cons_iff.mp h
  exact ⟨offset, us, rfl, rfl⟩

/-- A reader succeeds with a result and the tokens after it. -/
def Reads {α : Type} {P : α × Tokens → Prop} (x : Except FormulaFault { r // P r }) (a : α)
    (rest : Tokens) : Prop := ∃ h, x = .ok ⟨(a, rest), h⟩

/-- The tokens do not make a call of a name before them. -/
def EndsName (ts : Tokens) : Prop := ∀ t ∈ ts.head?, t.token ≠ .lparen

/-- The tokens do not make the base of a power of what is before them. -/
def EndsPower (ts : Tokens) : Prop := ∀ t ∈ ts.head?, t.token ≠ .lparen ∧ t.token ≠ .caret

theorem EndsPower.endsName {ts : Tokens} (h : EndsPower ts) : EndsName ts :=
  fun t ht => (h t ht).1

variable {stop : ℕ}

theorem sumTail_of_ends {lhs : Expr} {ts : Tokens}
    (h : ∀ t ∈ ts.head?, sumOperator? t.token = none) : Reads (sumTail stop lhs ts) lhs ts := by
  cases ts with
  | nil => rw [sumTail]; exact ⟨_, rfl⟩
  | cons t ts =>
    rw [sumTail, h t rfl]
    exact ⟨_, rfl⟩

theorem productTail_of_ends {lhs : Expr} {ts : Tokens}
    (h : ∀ t ∈ ts.head?, productOperator? t.token = none) :
    Reads (productTail stop lhs ts) lhs ts := by
  cases ts with
  | nil => rw [productTail]; exact ⟨_, rfl⟩
  | cons t ts =>
    rw [productTail, h t rfl]
    exact ⟨_, rfl⟩

theorem expr_of_term {ts rest us : Tokens} {lhs e : Expr} (ht : Reads (term stop ts) lhs rest)
    (h : Reads (sumTail stop lhs rest) e us) : Reads (expr stop ts) e us := by
  obtain ⟨_, ht⟩ := ht
  obtain ⟨_, h⟩ := h
  rw [expr, ht]
  simp only [bind, Except.bind, h]
  exact ⟨_, rfl⟩

theorem term_of_unary {ts rest us : Tokens} {lhs e : Expr} (ht : Reads (unary stop ts) lhs rest)
    (h : Reads (productTail stop lhs rest) e us) : Reads (term stop ts) e us := by
  obtain ⟨_, ht⟩ := ht
  obtain ⟨_, h⟩ := h
  rw [term, ht]
  simp only [bind, Except.bind, h]
  exact ⟨_, rfl⟩

theorem sumTail_of_operator {t : PlacedToken} {ts rest us : Tokens} {op : Operator}
    {lhs rhs e : Expr} (hop : sumOperator? t.token = some op) (ht : Reads (term stop ts) rhs rest)
    (h : Reads (sumTail stop (.binary op lhs rhs) rest) e us) :
    Reads (sumTail stop lhs (t :: ts)) e us := by
  obtain ⟨_, ht⟩ := ht
  obtain ⟨_, h⟩ := h
  rw [sumTail, hop]
  simp only [bind, Except.bind, ht, h]
  exact ⟨_, rfl⟩

theorem productTail_of_operator {t : PlacedToken} {ts rest us : Tokens} {op : Operator}
    {lhs rhs e : Expr} (hop : productOperator? t.token = some op)
    (ht : Reads (unary stop ts) rhs rest)
    (h : Reads (productTail stop (.binary op lhs rhs) rest) e us) :
    Reads (productTail stop lhs (t :: ts)) e us := by
  obtain ⟨_, ht⟩ := ht
  obtain ⟨_, h⟩ := h
  rw [productTail, hop]
  simp only [bind, Except.bind, ht, h]
  exact ⟨_, rfl⟩

theorem unary_of_minus {offset : ℕ} {ts rest : Tokens} {e : Expr}
    (h : Reads (unary stop ts) e rest) :
    Reads (unary stop (⟨.minus, offset⟩ :: ts)) (negated e) rest := by
  obtain ⟨_, h⟩ := h
  rw [unary]
  simp only [bind, Except.bind, h]
  exact ⟨_, rfl⟩

theorem unary_of_plus {offset : ℕ} {ts rest : Tokens} {e : Expr}
    (h : Reads (unary stop ts) e rest) : Reads (unary stop (⟨.plus, offset⟩ :: ts)) e rest := by
  obtain ⟨_, h⟩ := h
  rw [unary]
  simp only [bind, Except.bind, h]
  exact ⟨_, rfl⟩

theorem power_of_primary {ts rest : Tokens} {e : Expr} (h : Reads (primary stop ts) e rest)
    (hends : EndsPower rest) : Reads (power stop ts) e rest := by
  obtain ⟨_, h⟩ := h
  rw [power, h]
  simp only [bind, Except.bind]
  split
  case h_1 offset _ _ => exact absurd rfl (hends ⟨.caret, offset⟩ rfl).2
  case h_2 => exact ⟨_, rfl⟩

theorem power_of_caret {offset : ℕ} {ts rest us : Tokens} {base exponent : Expr}
    (h : Reads (primary stop ts) base (⟨.caret, offset⟩ :: rest))
    (hr : Reads (unary stop rest) exponent us) :
    Reads (power stop ts) (.binary .pow base exponent) us := by
  obtain ⟨_, h⟩ := h
  obtain ⟨_, hr⟩ := hr
  rw [power, h]
  simp only [bind, Except.bind, hr]
  exact ⟨_, rfl⟩

theorem primary_of_name {t : Text} {offset : ℕ} {rest : Tokens} (hends : EndsName rest) :
    Reads (primary stop (⟨.name t, offset⟩ :: rest)) (.name t false) rest := by
  rw [primary]
  · exact ⟨_, rfl⟩
  · rintro o us rfl
    exact hends ⟨.lparen, o⟩ rfl rfl

theorem primary_of_parens {offset offset' : ℕ} {ts rest : Tokens} {e : Expr}
    (h : Reads (expr stop ts) e (⟨.rparen, offset'⟩ :: rest)) :
    Reads (primary stop (⟨.lparen, offset⟩ :: ts)) e rest := by
  obtain ⟨_, h⟩ := h
  rw [primary]
  simp only [bind, Except.bind, h]
  exact ⟨_, rfl⟩

theorem primary_of_call {t : Text} {f : Function} {offset offset' : ℕ} {ts rest : Tokens}
    {args : List Expr} (hf : Function.lookup? t = some f)
    (h : Reads (arguments stop ts) args rest) (harity : f.arity.accepts args.length) :
    Reads (primary stop (⟨.name t, offset⟩ :: ⟨.lparen, offset'⟩ :: ts)) (.call f args) rest := by
  obtain ⟨_, h⟩ := h
  rw [primary, hf]
  simp only [bind, Except.bind, h, harity, if_true]
  exact ⟨_, rfl⟩

theorem arguments_of_list {ts rest : Tokens} {args : List Expr}
    (hhead : ∀ t ∈ ts.head?, t.token ≠ .rparen) (h : Reads (argumentList stop ts) args rest) :
    Reads (arguments stop ts) args rest := by
  rw [arguments]
  · exact h
  · rintro o us rfl
    exact hhead ⟨.rparen, o⟩ rfl rfl

theorem argumentList_of_one {offset : ℕ} {ts rest : Tokens} {e : Expr}
    (h : Reads (expr stop ts) e (⟨.rparen, offset⟩ :: rest)) :
    Reads (argumentList stop ts) [e] rest := by
  obtain ⟨_, h⟩ := h
  rw [argumentList, h]
  exact ⟨_, rfl⟩

theorem argumentList_of_comma {offset : ℕ} {ts rest us : Tokens} {e : Expr} {args : List Expr}
    (h : Reads (expr stop ts) e (⟨.comma, offset⟩ :: rest))
    (hr : Reads (argumentList stop rest) args us) :
    Reads (argumentList stop ts) (e :: args) us := by
  obtain ⟨_, h⟩ := h
  obtain ⟨_, hr⟩ := hr
  rw [argumentList, h]
  simp only [bind, Except.bind, hr]
  exact ⟨_, rfl⟩

/-! ## First tokens -/

/-- The token is neither a sign nor the end of a list of arguments. -/
def Opens (t : Token) : Prop := t ≠ .minus ∧ t ≠ .plus ∧ t ≠ .rparen

theorem IsPrimary.exists_cons {l : List Token} {e : Expr} (h : IsPrimary l e) :
    ∃ t r, l = t :: r ∧ Opens t := by
  cases h <;> exact ⟨_, _, rfl, by simp [Opens]⟩

theorem IsPower.exists_cons {l : List Token} {e : Expr} (h : IsPower l e) :
    ∃ t r, l = t :: r ∧ Opens t := by
  cases h with
  | primary h => exact h.exists_cons
  | power hl hr =>
    obtain ⟨t, r, rfl, ht⟩ := hl.exists_cons
    exact ⟨t, _, rfl, ht⟩

theorem IsUnary.exists_cons {l : List Token} {e : Expr} (h : IsUnary l e) :
    ∃ t r, l = t :: r ∧ t ≠ .rparen := by
  cases h with
  | minus h => exact ⟨_, _, rfl, by simp⟩
  | plus h => exact ⟨_, _, rfl, by simp⟩
  | power h =>
    obtain ⟨t, r, rfl, ht⟩ := h.exists_cons
    exact ⟨t, r, rfl, ht.2.2⟩

theorem IsTerm.exists_cons {l : List Token} {e : Expr} : IsTerm l e →
    ∃ t r, l = t :: r ∧ t ≠ .rparen
  | .unary h => h.exists_cons
  | .product hl _ _ => by
    obtain ⟨t, r, rfl, ht⟩ := hl.exists_cons
    exact ⟨t, _, rfl, ht⟩

theorem IsExpr.exists_cons {l : List Token} {e : Expr} : IsExpr l e →
    ∃ t r, l = t :: r ∧ t ≠ .rparen
  | .term h => h.exists_cons
  | .sum hl _ _ => by
    obtain ⟨t, r, rfl, ht⟩ := hl.exists_cons
    exact ⟨t, _, rfl, ht⟩

theorem IsArgumentList.exists_cons {l : List Token} {args : List Expr} (h : IsArgumentList l args) :
    ∃ t r, l = t :: r ∧ t ≠ .rparen := by
  cases h with
  | one h => exact h.exists_cons
  | cons hl hr =>
    obtain ⟨t, r, rfl, ht⟩ := hl.exists_cons
    exact ⟨t, _, rfl, ht⟩

theorem IsArgumentList.head_ne_rparen {l : List Token} {args : List Expr} {ts us : Tokens}
    (h : IsArgumentList l args) (hts : kinds ts = l) :
    ∀ t ∈ (ts ++ us).head?, t.token ≠ .rparen := by
  obtain ⟨t, r, rfl, ht⟩ := h.exists_cons
  obtain ⟨offset, vs, rfl, -⟩ := kinds_eq_cons hts
  rintro _ ⟨⟩
  exact ht

theorem unary_of_power {ts rest us : Tokens} {l : List Token} {e : Expr} (hl : IsPower l e)
    (hts : kinds ts = l) (h : Reads (power stop (ts ++ rest)) e us) :
    Reads (unary stop (ts ++ rest)) e us := by
  obtain ⟨t, r, rfl, hminus, hplus, -⟩ := hl.exists_cons
  obtain ⟨offset, us, rfl, -⟩ := kinds_eq_cons hts
  rw [List.cons_append] at h ⊢
  rw [unary]
  · exact h
  · intro o vs ho
    cases ho
    exact hminus rfl
  · intro o vs ho
    cases ho
    exact hplus rfl

/-! ## Every tree of the grammar is read -/

section Operators

variable {t : Token} {offset : ℕ} {ts : Tokens} {op : Operator}

theorem endsPower_of_sum (h : sumOperator? t = some op) : EndsPower (⟨t, offset⟩ :: ts) := by
  rintro _ ⟨⟩
  constructor <;> rintro rfl <;> cases h

theorem product_of_sum (h : sumOperator? t = some op) :
    ∀ u ∈ ((⟨t, offset⟩ :: ts : Tokens)).head?, productOperator? u.token = none := by
  rintro _ ⟨⟩
  cases t <;> first | rfl | cases h

theorem endsPower_of_product (h : productOperator? t = some op) :
    EndsPower (⟨t, offset⟩ :: ts) := by
  rintro _ ⟨⟩
  constructor <;> rintro rfl <;> cases h

end Operators

-- The left operands of a sum are read before its tail is, so that the whole tail is an argument of
-- the claim: what it makes of the tree is what reading gives.
mutual

theorem IsExpr.reads {l : List Token} {e e' : Expr} {ts rest us : Tokens} : IsExpr l e →
    kinds ts = l → EndsPower rest → (∀ t ∈ rest.head?, productOperator? t.token = none) →
    Reads (sumTail stop e rest) e' us → Reads (expr stop (ts ++ rest)) e' us
  | .term h, hts, hpower, hproduct, htail =>
    expr_of_term (h.reads hts hpower (productTail_of_ends hproduct)) htail
  | .sum hl ht hr, hts, hpower, hproduct, htail => by
    obtain ⟨ls, ts, rfl, hls, hts⟩ := kinds_eq_append hts
    obtain ⟨offset, rs, rfl, hrs⟩ := kinds_eq_cons hts
    rw [List.append_assoc]
    refine hl.reads hls (endsPower_of_sum ht) (product_of_sum ht) ?_
    exact sumTail_of_operator ht (hr.reads hrs hpower (productTail_of_ends hproduct)) htail

theorem IsTerm.reads {l : List Token} {e e' : Expr} {ts rest us : Tokens} : IsTerm l e →
    kinds ts = l → EndsPower rest → Reads (productTail stop e rest) e' us →
    Reads (term stop (ts ++ rest)) e' us
  | .unary h, hts, hpower, htail => term_of_unary (h.reads hts hpower) htail
  | .product hl ht hr, hts, hpower, htail => by
    obtain ⟨ls, ts, rfl, hls, hts⟩ := kinds_eq_append hts
    obtain ⟨offset, rs, rfl, hrs⟩ := kinds_eq_cons hts
    rw [List.append_assoc]
    refine hl.reads hls (endsPower_of_product ht) ?_
    exact productTail_of_operator ht (hr.reads hrs hpower) htail

theorem IsUnary.reads {l : List Token} {e : Expr} {ts rest : Tokens} : IsUnary l e →
    kinds ts = l → EndsPower rest → Reads (unary stop (ts ++ rest)) e rest
  | .minus h, hts, hpower => by
    obtain ⟨offset, us, rfl, hus⟩ := kinds_eq_cons hts
    exact unary_of_minus (h.reads hus hpower)
  | .plus h, hts, hpower => by
    obtain ⟨offset, us, rfl, hus⟩ := kinds_eq_cons hts
    exact unary_of_plus (h.reads hus hpower)
  | .power h, hts, hpower => unary_of_power h hts (h.reads hts hpower)

theorem IsPower.reads {l : List Token} {e : Expr} {ts rest : Tokens} : IsPower l e →
    kinds ts = l → EndsPower rest → Reads (power stop (ts ++ rest)) e rest
  | .primary h, hts, hpower => power_of_primary (h.reads hts hpower.endsName) hpower
  | .power hl hr, hts, hpower => by
    obtain ⟨ls, ts, rfl, hls, hts⟩ := kinds_eq_append hts
    obtain ⟨offset, rs, rfl, hrs⟩ := kinds_eq_cons hts
    rw [List.append_assoc]
    exact power_of_caret (hl.reads hls (by simp [EndsName])) (hr.reads hrs hpower)

theorem IsPrimary.reads {l : List Token} {e : Expr} {ts rest : Tokens} : IsPrimary l e →
    kinds ts = l → EndsName rest → Reads (primary stop (ts ++ rest)) e rest
  | .number n, hts, _ => by
    obtain ⟨offset, us, rfl, hus⟩ := kinds_eq_cons hts
    obtain rfl := List.map_eq_nil_iff.mp hus
    exact ⟨_, primary.eq_2 ..⟩
  | .name t, hts, hends => by
    obtain ⟨offset, us, rfl, hus⟩ := kinds_eq_cons hts
    obtain rfl := List.map_eq_nil_iff.mp hus
    exact primary_of_name hends
  | .quoted t, hts, _ => by
    obtain ⟨offset, us, rfl, hus⟩ := kinds_eq_cons hts
    obtain rfl := List.map_eq_nil_iff.mp hus
    exact ⟨_, primary.eq_3 ..⟩
  | .dollar n, hts, _ => by
    obtain ⟨offset, us, rfl, hus⟩ := kinds_eq_cons hts
    obtain rfl := List.map_eq_nil_iff.mp hus
    exact ⟨_, primary.eq_4 ..⟩
  | .call hf h harity, hts, _ => by
    obtain ⟨offset, us, rfl, hus⟩ := kinds_eq_cons hts
    obtain ⟨offset', vs, rfl, hvs⟩ := kinds_eq_cons hus
    obtain ⟨ls, rs, rfl, hls, hrs⟩ := kinds_eq_append hvs
    obtain ⟨offset'', ends, rfl, hends⟩ := kinds_eq_cons hrs
    obtain rfl := List.map_eq_nil_iff.mp hends
    -- A parenthesis follows the arguments, which ends every production in them.
    have hargs : Reads (arguments stop (ls ++ ⟨.rparen, offset''⟩ :: rest)) _ rest := h.reads hls
    have happend : ls ++ [⟨.rparen, offset''⟩] ++ rest = ls ++ ⟨.rparen, offset''⟩ :: rest := by
      simp
    rw [List.cons_append, List.cons_append, happend]
    exact primary_of_call hf hargs harity
  | .parens h, hts, _ => by
    obtain ⟨offset, us, rfl, hus⟩ := kinds_eq_cons hts
    obtain ⟨ls, rs, rfl, hls, hrs⟩ := kinds_eq_append hus
    obtain ⟨offset', ends, rfl, hends⟩ := kinds_eq_cons hrs
    obtain rfl := List.map_eq_nil_iff.mp hends
    have hinner : Reads (expr stop (ls ++ ⟨.rparen, offset'⟩ :: rest)) _ _ :=
      h.reads hls (by simp [EndsPower]) (by simp [productOperator?])
        (sumTail_of_ends (by simp [sumOperator?]))
    have happend : ls ++ [⟨.rparen, offset'⟩] ++ rest = ls ++ ⟨.rparen, offset'⟩ :: rest := by simp
    rw [List.cons_append, happend]
    exact primary_of_parens hinner

theorem IsArguments.reads {l : List Token} {args : List Expr} {ts rest : Tokens} {offset : ℕ} :
    IsArguments l args → kinds ts = l →
    Reads (arguments stop (ts ++ ⟨.rparen, offset⟩ :: rest)) args rest
  | .none, hts => by
    obtain rfl := List.map_eq_nil_iff.mp hts
    exact ⟨_, arguments.eq_1 ..⟩
  | .some h, hts =>
    arguments_of_list (h.head_ne_rparen hts) (h.reads hts)

theorem IsArgumentList.reads {l : List Token} {args : List Expr} {ts rest : Tokens} {offset : ℕ} :
    IsArgumentList l args → kinds ts = l →
    Reads (argumentList stop (ts ++ ⟨.rparen, offset⟩ :: rest)) args rest
  | .one h, hts =>
    argumentList_of_one (h.reads hts (by simp [EndsPower]) (by simp [productOperator?])
      (sumTail_of_ends (by simp [sumOperator?])))
  | .cons hl hr, hts => by
    obtain ⟨ls, ts, rfl, hls, hts⟩ := kinds_eq_append hts
    obtain ⟨o, rs, rfl, hrs⟩ := kinds_eq_cons hts
    rw [List.append_assoc]
    exact argumentList_of_comma (hl.reads hls (by simp [EndsPower]) (by simp [productOperator?])
      (sumTail_of_ends (by simp [sumOperator?]))) (hr.reads hrs)

end

end Rollup.Formula
