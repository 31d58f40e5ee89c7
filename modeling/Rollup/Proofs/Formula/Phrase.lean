import Rollup.Proofs.Formula.Derivation

/-! # Formulas as they are written

The grammar derives phrases, in which signs, parentheses and names of functions stand as they were
written. A phrase stands for a tree when its calls are calls of functions. Reading a text succeeds
exactly when its tokens derive such a phrase, and gives the tree, which is the only one.
-/

namespace Rollup

/-! ## Names of functions -/

/-- A name stands for a function in any case, and for an aggregate also with a `v` in front. -/
def Function.IsNamed (f : Function) (t : Text) : Prop :=
  Text.asciiLower t = f.name ∨ f.isAggregate ∧ Text.asciiLower t = 'v' :: f.name

theorem Function.named?_eq_some_iff {t : Text} {f : Function} :
    Function.named? t = some f ↔ t = f.name := by
  constructor
  · intro h
    have hname := List.find?_some h
    simpa using (eq_of_beq hname).symm
  · rintro rfl
    have hall : ∀ f ∈ Function.all, Function.named? f.name = some f := by decide
    exact hall f f.mem_all

theorem Function.named?_v {f : Function} (h : f.isAggregate) :
    Function.named? ('v' :: f.name) = none := by
  have hall : ∀ f ∈ Function.all, f.isAggregate → Function.named? ('v' :: f.name) = none := by
    decide
  exact hall f f.mem_all h

theorem Function.lookup?_eq_some_iff {t : Text} {f : Function} :
    Function.lookup? t = some f ↔ f.IsNamed t := by
  unfold Function.lookup? Function.IsNamed
  dsimp only
  constructor
  · intro h
    split at h
    case h_1 g hg =>
      cases h
      exact .inl (Function.named?_eq_some_iff.mp hg)
    case h_2 =>
      split at h
      case h_1 rest hrest =>
        obtain ⟨hnamed, hagg⟩ := Option.filter_eq_some_iff.mp h
        rw [Function.named?_eq_some_iff.mp hnamed] at hrest
        exact .inr ⟨hagg, hrest⟩
      case h_2 => cases h
  · rintro (h | ⟨hagg, h⟩)
    · rw [Function.named?_eq_some_iff.mpr h]
    · rw [h, Function.named?_v hagg]
      simp [Function.named?_eq_some_iff.mpr rfl, hagg]

namespace Formula

/-! ## Phrases -/

/-- What is written, before signs are folded and functions are looked up. -/
inductive Phrase where
  | number (n : Float)
  | name (t : Text)
  | quoted (t : Text)
  | dollar (n : Nat)
  | call (name : Text) (args : List Phrase)
  | parens (p : Phrase)
  | minus (p : Phrase)
  | plus (p : Phrase)
  | binary (op : Operator) (lhs rhs : Phrase)

inductive SumSign : Token → Operator → Prop
  | plus : SumSign .plus .add
  | minus : SumSign .minus .sub

inductive ProductSign : Token → Operator → Prop
  | star : ProductSign .star .mul
  | slash : ProductSign .slash .div

namespace Phrase

/-! ### The grammar -/

mutual

inductive IsExpr : List Token → Phrase → Prop
  | term {l : List Token} {p : Phrase} (h : IsTerm l p) : IsExpr l p
  | sum {l r : List Token} {t : Token} {op : Operator} {lhs rhs : Phrase} (hl : IsExpr l lhs)
      (ht : SumSign t op) (hr : IsTerm r rhs) : IsExpr (l ++ t :: r) (.binary op lhs rhs)

inductive IsTerm : List Token → Phrase → Prop
  | unary {l : List Token} {p : Phrase} (h : IsUnary l p) : IsTerm l p
  | product {l r : List Token} {t : Token} {op : Operator} {lhs rhs : Phrase} (hl : IsTerm l lhs)
      (ht : ProductSign t op) (hr : IsUnary r rhs) : IsTerm (l ++ t :: r) (.binary op lhs rhs)

inductive IsUnary : List Token → Phrase → Prop
  | minus {l : List Token} {p : Phrase} (h : IsUnary l p) : IsUnary (.minus :: l) (.minus p)
  | plus {l : List Token} {p : Phrase} (h : IsUnary l p) : IsUnary (.plus :: l) (.plus p)
  | power {l : List Token} {p : Phrase} (h : IsPower l p) : IsUnary l p

inductive IsPower : List Token → Phrase → Prop
  | primary {l : List Token} {p : Phrase} (h : IsPrimary l p) : IsPower l p
  | power {l r : List Token} {base exponent : Phrase} (hl : IsPrimary l base)
      (hr : IsUnary r exponent) : IsPower (l ++ .caret :: r) (.binary .pow base exponent)

inductive IsPrimary : List Token → Phrase → Prop
  | number (n : Float) : IsPrimary [.number n] (.number n)
  | name (t : Text) : IsPrimary [.name t] (.name t)
  | quoted (t : Text) : IsPrimary [.quoted t] (.quoted t)
  | dollar (n : Nat) : IsPrimary [.dollar n] (.dollar n)
  | call {l : List Token} {args : List Phrase} (t : Text) (h : IsArguments l args) :
      IsPrimary (.name t :: .lparen :: (l ++ [.rparen])) (.call t args)
  | parens {l : List Token} {p : Phrase} (h : IsExpr l p) :
      IsPrimary (.lparen :: (l ++ [.rparen])) (.parens p)

inductive IsArguments : List Token → List Phrase → Prop
  | none : IsArguments [] []
  | some {l : List Token} {args : List Phrase} (h : IsArgumentList l args) : IsArguments l args

inductive IsArgumentList : List Token → List Phrase → Prop
  | one {l : List Token} {p : Phrase} (h : IsExpr l p) : IsArgumentList l [p]
  | cons {l r : List Token} {p : Phrase} {args : List Phrase} (hl : IsExpr l p)
      (hr : IsArgumentList r args) : IsArgumentList (l ++ .comma :: r) (p :: args)

end

/-! ### The tree of a phrase -/

mutual

/-- A phrase stands for a tree: every call is of a function that its name stands for, with a number
of arguments that the function takes. Parentheses and pluses leave nothing in the tree, and a minus
whose operand is a literal there becomes part of it. -/
inductive Stands : Phrase → Expr → Prop
  | number (n : Float) : Stands (.number n) (.number n)
  | name (t : Text) : Stands (.name t) (.name t false)
  | quoted (t : Text) : Stands (.quoted t) (.name t true)
  | dollar (n : Nat) : Stands (.dollar n) (.name ('$' :: Text.ofNat n) false)
  | call {t : Text} {f : Function} {ps : List Phrase} {args : List Expr} (hf : f.IsNamed t)
      (h : StandAll ps args) (harity : f.arity.accepts args.length) :
      Stands (.call t ps) (.call f args)
  | parens {p : Phrase} {e : Expr} (h : Stands p e) : Stands (.parens p) e
  | plus {p : Phrase} {e : Expr} (h : Stands p e) : Stands (.plus p) e
  | literal {p : Phrase} {n : Float} (h : Stands p (.number n)) : Stands (.minus p) (.number (-n))
  | minus {p : Phrase} {e : Expr} (h : Stands p e) (hne : ∀ n, e ≠ .number n) :
      Stands (.minus p) (.neg e)
  | binary {p q : Phrase} {lhs rhs : Expr} (op : Operator) (hl : Stands p lhs)
      (hr : Stands q rhs) : Stands (.binary op p q) (.binary op lhs rhs)

inductive StandAll : List Phrase → List Expr → Prop
  | nil : StandAll [] []
  | cons {p : Phrase} {e : Expr} {ps : List Phrase} {es : List Expr} (h : Stands p e)
      (hs : StandAll ps es) : StandAll (p :: ps) (e :: es)

end

theorem stands_negated {p : Phrase} {e : Expr} (h : p.Stands e) :
    (Phrase.minus p).Stands (negated e) := by
  cases e with
  | number n => exact .literal h
  | _ => exact .minus h (by simp)

theorem eq_negated {p : Phrase} {e : Expr} (h : (Phrase.minus p).Stands e) :
    ∃ x, p.Stands x ∧ e = negated x := by
  cases h with
  | literal h => exact ⟨_, h, rfl⟩
  | minus h hne =>
    rename_i x
    refine ⟨x, h, ?_⟩
    cases x with
    | number n => exact absurd rfl (hne n)
    | _ => rfl

mutual

/-- A phrase stands for one tree. -/
theorem Stands.unique {p : Phrase} {e e' : Expr} : Stands p e → Stands p e' → e = e'
  | .number _, .number _ => rfl
  | .name _, .name _ => rfl
  | .quoted _, .quoted _ => rfl
  | .dollar _, .dollar _ => rfl
  | .call hf h _, .call hf' h' _ => by
    rw [← Function.lookup?_eq_some_iff] at hf hf'
    rw [Option.some.inj (hf.symm.trans hf'), h.unique h']
  | .parens h, .parens h' => h.unique h'
  | .plus h, .plus h' => h.unique h'
  | .literal h, .literal h' => by
    cases h.unique h'
    rfl
  | .literal h, .minus h' hne => absurd (h'.unique h) (hne _)
  | .minus h hne, .literal h' => absurd (h.unique h') (hne _)
  | .minus h _, .minus h' _ => by rw [h.unique h']
  | .binary _ hl hr, .binary _ hl' hr' => by rw [hl.unique hl', hr.unique hr']

theorem StandAll.unique {ps : List Phrase} {es es' : List Expr} : StandAll ps es →
    StandAll ps es' → es = es'
  | .nil, .nil => rfl
  | .cons h hs, .cons h' hs' => by rw [h.unique h', hs.unique hs']

end

end Phrase

theorem sumSign_iff {t : Token} {op : Operator} : SumSign t op ↔ sumOperator? t = some op := by
  constructor
  · rintro ⟨⟩ <;> rfl
  · intro h
    cases t <;> cases h
    · exact .plus
    · exact .minus

theorem productSign_iff {t : Token} {op : Operator} :
    ProductSign t op ↔ productOperator? t = some op := by
  constructor
  · rintro ⟨⟩ <;> rfl
  · intro h
    cases t <;> cases h
    · exact .star
    · exact .slash

/-! ## Phrases of trees -/

mutual

theorem IsExpr.exists_phrase {l : List Token} {e : Expr} : IsExpr l e →
    ∃ p, Phrase.IsExpr l p ∧ p.Stands e
  | .term h => by
    obtain ⟨p, hp, hs⟩ := h.exists_phrase
    exact ⟨p, .term hp, hs⟩
  | .sum hl ht hr => by
    obtain ⟨p, hp, hlhs⟩ := hl.exists_phrase
    obtain ⟨q, hq, hrhs⟩ := hr.exists_phrase
    exact ⟨_, .sum hp (sumSign_iff.mpr ht) hq, .binary _ hlhs hrhs⟩

theorem IsTerm.exists_phrase {l : List Token} {e : Expr} : IsTerm l e →
    ∃ p, Phrase.IsTerm l p ∧ p.Stands e
  | .unary h => by
    obtain ⟨p, hp, hs⟩ := h.exists_phrase
    exact ⟨p, .unary hp, hs⟩
  | .product hl ht hr => by
    obtain ⟨p, hp, hlhs⟩ := hl.exists_phrase
    obtain ⟨q, hq, hrhs⟩ := hr.exists_phrase
    exact ⟨_, .product hp (productSign_iff.mpr ht) hq, .binary _ hlhs hrhs⟩

theorem IsUnary.exists_phrase {l : List Token} {e : Expr} : IsUnary l e →
    ∃ p, Phrase.IsUnary l p ∧ p.Stands e
  | .minus h => by
    obtain ⟨p, hp, hs⟩ := h.exists_phrase
    exact ⟨_, .minus hp, Phrase.stands_negated hs⟩
  | .plus h => by
    obtain ⟨p, hp, hs⟩ := h.exists_phrase
    exact ⟨_, .plus hp, .plus hs⟩
  | .power h => by
    obtain ⟨p, hp, hs⟩ := h.exists_phrase
    exact ⟨p, .power hp, hs⟩

theorem IsPower.exists_phrase {l : List Token} {e : Expr} : IsPower l e →
    ∃ p, Phrase.IsPower l p ∧ p.Stands e
  | .primary h => by
    obtain ⟨p, hp, hs⟩ := h.exists_phrase
    exact ⟨p, .primary hp, hs⟩
  | .power hl hr => by
    obtain ⟨p, hp, hbase⟩ := hl.exists_phrase
    obtain ⟨q, hq, hexponent⟩ := hr.exists_phrase
    exact ⟨_, .power hp hq, .binary _ hbase hexponent⟩

theorem IsPrimary.exists_phrase {l : List Token} {e : Expr} : IsPrimary l e →
    ∃ p, Phrase.IsPrimary l p ∧ p.Stands e
  | .number n => ⟨_, .number n, .number n⟩
  | .name t => ⟨_, .name t, .name t⟩
  | .quoted t => ⟨_, .quoted t, .quoted t⟩
  | .dollar n => ⟨_, .dollar n, .dollar n⟩
  | .call hf h harity => by
    obtain ⟨ps, hps, hs⟩ := h.exists_phrases
    exact ⟨_, .call _ hps, .call (Function.lookup?_eq_some_iff.mp hf) hs harity⟩
  | .parens h => by
    obtain ⟨p, hp, hs⟩ := h.exists_phrase
    exact ⟨_, .parens hp, .parens hs⟩

theorem IsArguments.exists_phrases {l : List Token} {args : List Expr} : IsArguments l args →
    ∃ ps, Phrase.IsArguments l ps ∧ Phrase.StandAll ps args
  | .none => ⟨[], .none, .nil⟩
  | .some h => by
    obtain ⟨ps, hps, hs⟩ := h.exists_phrases
    exact ⟨ps, .some hps, hs⟩

theorem IsArgumentList.exists_phrases {l : List Token} {args : List Expr} :
    IsArgumentList l args → ∃ ps, Phrase.IsArgumentList l ps ∧ Phrase.StandAll ps args
  | .one h => by
    obtain ⟨p, hp, hs⟩ := h.exists_phrase
    exact ⟨[p], .one hp, .cons hs .nil⟩
  | .cons hl hr => by
    obtain ⟨p, hp, hs⟩ := hl.exists_phrase
    obtain ⟨ps, hps, hss⟩ := hr.exists_phrases
    exact ⟨p :: ps, .cons hp hps, .cons hs hss⟩

end

/-! ## Trees of phrases -/

namespace Phrase

mutual

theorem IsExpr.isExpr {l : List Token} {p : Phrase} {e : Expr} : IsExpr l p → p.Stands e →
    Formula.IsExpr l e
  | .term h, hs => .term (h.isTerm hs)
  | .sum hl ht hr, .binary _ hlhs hrhs =>
    .sum (hl.isExpr hlhs) (sumSign_iff.mp ht) (hr.isTerm hrhs)

theorem IsTerm.isTerm {l : List Token} {p : Phrase} {e : Expr} : IsTerm l p → p.Stands e →
    Formula.IsTerm l e
  | .unary h, hs => .unary (h.isUnary hs)
  | .product hl ht hr, .binary _ hlhs hrhs =>
    .product (hl.isTerm hlhs) (productSign_iff.mp ht) (hr.isUnary hrhs)

theorem IsUnary.isUnary {l : List Token} {p : Phrase} {e : Expr} : IsUnary l p → p.Stands e →
    Formula.IsUnary l e
  | .minus h, hs => by
    obtain ⟨x, hx, rfl⟩ := eq_negated hs
    exact .minus (h.isUnary hx)
  | .plus h, .plus hs => .plus (h.isUnary hs)
  | .power h, hs => .power (h.isPower hs)

theorem IsPower.isPower {l : List Token} {p : Phrase} {e : Expr} : IsPower l p → p.Stands e →
    Formula.IsPower l e
  | .primary h, hs => .primary (h.isPrimary hs)
  | .power hl hr, .binary _ hbase hexponent =>
    .power (hl.isPrimary hbase) (hr.isUnary hexponent)

theorem IsPrimary.isPrimary {l : List Token} {p : Phrase} {e : Expr} : IsPrimary l p →
    p.Stands e → Formula.IsPrimary l e
  | .number _, .number n => .number n
  | .name _, .name t => .name t
  | .quoted _, .quoted t => .quoted t
  | .dollar _, .dollar n => .dollar n
  | .call _ h, .call hf hs harity =>
    .call (Function.lookup?_eq_some_iff.mpr hf) (h.isArguments hs) harity
  | .parens h, .parens hs => .parens (h.isExpr hs)

theorem IsArguments.isArguments {l : List Token} {ps : List Phrase} {args : List Expr} :
    IsArguments l ps → StandAll ps args → Formula.IsArguments l args
  | .none, .nil => .none
  | .some h, hs => .some (h.isArgumentList hs)

theorem IsArgumentList.isArgumentList {l : List Token} {ps : List Phrase} {args : List Expr} :
    IsArgumentList l ps → StandAll ps args → Formula.IsArgumentList l args
  | .one h, .cons hs .nil => .one (h.isExpr hs)
  | .cons hl hr, .cons hs hss => .cons (hl.isExpr hs) (hr.isArgumentList hss)

end

end Phrase

theorem isExpr_iff_exists_phrase {l : List Token} {e : Expr} :
    IsExpr l e ↔ ∃ p, Phrase.IsExpr l p ∧ p.Stands e := by
  constructor
  · exact IsExpr.exists_phrase
  · rintro ⟨p, hp, hs⟩
    exact hp.isExpr hs

end Formula

end Rollup
