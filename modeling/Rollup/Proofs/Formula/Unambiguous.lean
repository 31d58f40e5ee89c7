import Rollup.Proofs.Formula.Phrase

/-! # The grammar is unambiguous

Tokens derive at most one phrase. What follows a phrase decides where it ends: nothing that could
continue it may come next.
-/

namespace Rollup

namespace Formula.Phrase

/-! ## Where a phrase ends -/

/-- How tightly a token continues what is before it. -/
def binding : Token → ℕ
  | .lparen => 4
  | .caret => 3
  | .star | .slash => 2
  | .plus | .minus => 1
  | _ => 0

/-- The tokens start with nothing that binds as tightly as `k`. -/
def EndsBelow (k : ℕ) (r : List Token) : Prop := ∀ t ∈ r.head?, binding t < k

theorem endsBelow_cons {k : ℕ} {t : Token} {r : List Token} :
    EndsBelow k (t :: r) ↔ binding t < k := by
  simp [EndsBelow]

theorem endsBelow_rparen (r : List Token) : EndsBelow 1 (.rparen :: r) :=
  endsBelow_cons.mpr Nat.zero_lt_one

theorem endsBelow_comma (r : List Token) : EndsBelow 1 (.comma :: r) :=
  endsBelow_cons.mpr Nat.zero_lt_one

theorem endsBelow_caret (r : List Token) : EndsBelow 4 (.caret :: r) :=
  endsBelow_cons.mpr (Nat.lt_succ_self 3)

theorem EndsBelow.mono {k m : ℕ} {r : List Token} (h : EndsBelow k r) (hk : k ≤ m) :
    EndsBelow m r := by
  intro t ht
  exact Nat.lt_of_lt_of_le (h t ht) hk

/-- Two phrases of one production that start at the same token are the same, when nothing as tight
as `k` follows them and the first has less than `n` tokens. -/
def UniqueBelow (n k : ℕ) (R : List Token → Phrase → Prop) : Prop :=
  ∀ ⦃l l' r r' : List Token⦄ ⦃p p' : Phrase⦄, l.length < n → R l p → R l' p' →
    l ++ r = l' ++ r' → EndsBelow k r → EndsBelow k r' → l = l' ∧ p = p'

/-! ## First tokens -/

theorem IsPrimary.exists_cons {l : List Token} {p : Phrase} (h : IsPrimary l p) :
    ∃ t r, l = t :: r ∧ Opens t := by
  cases h <;> exact ⟨_, _, rfl, by simp [Opens]⟩

theorem IsPower.exists_cons {l : List Token} {p : Phrase} (h : IsPower l p) :
    ∃ t r, l = t :: r ∧ Opens t := by
  cases h with
  | primary h => exact h.exists_cons
  | power hl hr =>
    obtain ⟨t, r, rfl, ht⟩ := hl.exists_cons
    exact ⟨t, _, rfl, ht⟩

theorem IsUnary.exists_cons {l : List Token} {p : Phrase} (h : IsUnary l p) :
    ∃ t r, l = t :: r ∧ t ≠ .rparen := by
  cases h with
  | minus h => exact ⟨_, _, rfl, by simp⟩
  | plus h => exact ⟨_, _, rfl, by simp⟩
  | power h =>
    obtain ⟨t, r, rfl, ht⟩ := h.exists_cons
    exact ⟨t, r, rfl, ht.2.2⟩

theorem IsTerm.exists_cons {l : List Token} {p : Phrase} : IsTerm l p →
    ∃ t r, l = t :: r ∧ t ≠ .rparen
  | .unary h => h.exists_cons
  | .product hl _ _ => by
    obtain ⟨t, r, rfl, ht⟩ := hl.exists_cons
    exact ⟨t, _, rfl, ht⟩

theorem IsExpr.exists_cons {l : List Token} {p : Phrase} : IsExpr l p →
    ∃ t r, l = t :: r ∧ t ≠ .rparen
  | .term h => h.exists_cons
  | .sum hl _ _ => by
    obtain ⟨t, r, rfl, ht⟩ := hl.exists_cons
    exact ⟨t, _, rfl, ht⟩

theorem IsArgumentList.exists_cons {l : List Token} {args : List Phrase}
    (h : IsArgumentList l args) : ∃ t r, l = t :: r ∧ t ≠ .rparen := by
  cases h with
  | one h => exact h.exists_cons
  | cons hl hr =>
    obtain ⟨t, r, rfl, ht⟩ := hl.exists_cons
    exact ⟨t, _, rfl, ht⟩

/-! ## Arguments and primaries -/

section Inner

variable {n : ℕ} (hexpr : UniqueBelow n 1 IsExpr)

include hexpr

theorem IsArgumentList.unique {l l' r r' : List Token} {ps ps' : List Phrase} :
    IsArgumentList l ps → IsArgumentList l' ps' → l.length < n →
    l ++ .rparen :: r = l' ++ .rparen :: r' → l = l' ∧ ps = ps'
  | .one h, .one h', hlen, heq => by
    obtain ⟨rfl, rfl⟩ := hexpr hlen h h' heq (endsBelow_rparen r) (endsBelow_rparen r')
    exact ⟨rfl, rfl⟩
  | .one h, .cons hl' hr', hlen, heq => by
    rw [List.append_assoc, List.cons_append] at heq
    obtain ⟨rfl, rfl⟩ := hexpr hlen h hl' heq (endsBelow_rparen r) (endsBelow_comma _)
    simp at heq
  | .cons hl hr, .one h', hlen, heq => by
    rw [List.append_assoc, List.cons_append] at heq
    rw [List.length_append] at hlen
    obtain ⟨rfl, rfl⟩ := hexpr (by omega) hl h' heq (endsBelow_comma _) (endsBelow_rparen r')
    simp at heq
  | .cons hl hr, .cons hl' hr', hlen, heq => by
    rw [List.append_assoc, List.append_assoc, List.cons_append, List.cons_append] at heq
    rw [List.length_append, List.length_cons] at hlen
    obtain ⟨rfl, rfl⟩ := hexpr (by omega) hl hl' heq (endsBelow_comma _) (endsBelow_comma _)
    have hrest := List.append_cancel_left heq
    obtain ⟨rfl, rfl⟩ := hr.unique hr' (by omega) (List.cons.inj hrest).2
    exact ⟨rfl, rfl⟩

theorem IsArguments.unique {l l' r r' : List Token} {ps ps' : List Phrase} (h : IsArguments l ps)
    (h' : IsArguments l' ps') (hlen : l.length < n)
    (heq : l ++ .rparen :: r = l' ++ .rparen :: r') : l = l' ∧ ps = ps' := by
  cases h with
  | none =>
    cases h' with
    | none => exact ⟨rfl, rfl⟩
    | some h' =>
      obtain ⟨t, s, rfl, ht⟩ := h'.exists_cons
      exact absurd (List.cons.inj heq).1.symm ht
  | some h =>
    cases h' with
    | none =>
      obtain ⟨t, s, rfl, ht⟩ := h.exists_cons
      exact absurd (List.cons.inj heq).1 ht
    | some h' => exact IsArgumentList.unique hexpr h h' hlen heq

/-- What stands in the parentheses of a primary is shorter than the primary. -/
theorem unique_primary : UniqueBelow (n + 1) 4 IsPrimary := by
  intro l l' r r' p p' hlen h h' heq hr hr'
  -- phrases with different first tokens differ at once
  cases h <;> cases h' <;> simp at heq
  case number.number => exact ⟨by rw [heq.1], by rw [heq.1]⟩
  case name.name => exact ⟨by rw [heq.1], by rw [heq.1]⟩
  case name.call =>
    rw [heq.2, endsBelow_cons] at hr
    exact absurd hr (by simp [binding])
  case quoted.quoted => exact ⟨by rw [heq.1], by rw [heq.1]⟩
  case dollar.dollar => exact ⟨by rw [heq.1], by rw [heq.1]⟩
  case call.name =>
    rw [← heq.2, endsBelow_cons] at hr'
    exact absurd hr' (by simp [binding])
  case call.call hargs _ _ _ hargs' =>
    obtain ⟨rfl, heq⟩ := heq
    obtain ⟨rfl, rfl⟩ := IsArguments.unique hexpr hargs hargs' (by simp at hlen; omega) heq
    exact ⟨rfl, rfl⟩
  case parens.parens hp _ _ hp' =>
    obtain ⟨rfl, rfl⟩ := hexpr (by simp at hlen; omega) hp hp' heq (endsBelow_rparen _)
      (endsBelow_rparen _)
    exact ⟨rfl, rfl⟩

end Inner

/-! ## Powers and signs -/

mutual

theorem IsUnary.unique {n : ℕ} (hprimary : UniqueBelow n 4 IsPrimary) {l l' r r' : List Token}
    {p p' : Phrase} (hlen : l.length < n) : IsUnary l p → IsUnary l' p' → l ++ r = l' ++ r' →
    EndsBelow 3 r → EndsBelow 3 r' → l = l' ∧ p = p'
  | .minus h, .minus h', heq, hr, hr' => by
    obtain ⟨rfl, rfl⟩ := h.unique hprimary (Nat.lt_of_succ_lt hlen) h' (List.cons.inj heq).2 hr hr'
    exact ⟨rfl, rfl⟩
  | .plus h, .plus h', heq, hr, hr' => by
    obtain ⟨rfl, rfl⟩ := h.unique hprimary (Nat.lt_of_succ_lt hlen) h' (List.cons.inj heq).2 hr hr'
    exact ⟨rfl, rfl⟩
  | .power h, .power h', heq, hr, hr' => h.unique hprimary hlen h' heq hr hr'
  | .minus h, .plus h', heq, _, _ => by cases (List.cons.inj heq).1
  | .plus h, .minus h', heq, _, _ => by cases (List.cons.inj heq).1
  | .minus h, .power h', heq, _, _ => by
    obtain ⟨t, s, rfl, ht, -⟩ := h'.exists_cons
    exact absurd (List.cons.inj heq).1.symm ht
  | .plus h, .power h', heq, _, _ => by
    obtain ⟨t, s, rfl, -, ht, -⟩ := h'.exists_cons
    exact absurd (List.cons.inj heq).1.symm ht
  | .power h, .minus h', heq, _, _ => by
    obtain ⟨t, s, rfl, ht, -⟩ := h.exists_cons
    exact absurd (List.cons.inj heq).1 ht
  | .power h, .plus h', heq, _, _ => by
    obtain ⟨t, s, rfl, -, ht, -⟩ := h.exists_cons
    exact absurd (List.cons.inj heq).1 ht

theorem IsPower.unique {n : ℕ} (hprimary : UniqueBelow n 4 IsPrimary) {l l' r r' : List Token}
    {p p' : Phrase} (hlen : l.length < n) : IsPower l p → IsPower l' p' → l ++ r = l' ++ r' →
    EndsBelow 3 r → EndsBelow 3 r' → l = l' ∧ p = p'
  | .primary h, .primary h', heq, hr, hr' =>
    hprimary hlen h h' heq (hr.mono (by omega)) (hr'.mono (by omega))
  | .primary h, .power hl' _, heq, hr, _ => by
    rw [List.append_assoc] at heq
    obtain ⟨rfl, rfl⟩ := hprimary hlen h hl' heq (hr.mono (by omega)) (endsBelow_caret _)
    rw [List.append_cancel_left heq, List.cons_append, endsBelow_cons] at hr
    exact absurd hr (by decide)
  | .power hl _, .primary h', heq, _, hr' => by
    rw [List.append_assoc] at heq
    rw [List.length_append] at hlen
    obtain ⟨rfl, rfl⟩ := hprimary (by omega) hl h' heq (endsBelow_caret _) (hr'.mono (by omega))
    rw [← List.append_cancel_left heq, List.cons_append, endsBelow_cons] at hr'
    exact absurd hr' (by decide)
  | .power hl h, .power hl' h', heq, hr, hr' => by
    rw [List.append_assoc, List.append_assoc] at heq
    rw [List.length_append, List.length_cons] at hlen
    obtain ⟨rfl, rfl⟩ := hprimary (by omega) hl hl' heq (endsBelow_caret _) (endsBelow_caret _)
    have hrest := List.append_cancel_left heq
    obtain ⟨rfl, rfl⟩ := h.unique hprimary (by omega) h' (List.cons.inj hrest).2 hr hr'
    exact ⟨rfl, rfl⟩

end

/-! ## Sums and products -/

/-- The signs of a line of operands and the operands after them, which join what is before them one
after the other. -/
inductive Tail (Sign : Token → Operator → Prop) (Operand : List Token → Phrase → Prop) :
    Phrase → List Token → Phrase → Prop
  | nil (p : Phrase) : Tail Sign Operand p [] p
  | cons {p q e : Phrase} {t : Token} {op : Operator} {r l : List Token} (ht : Sign t op)
      (hr : Operand r q) (h : Tail Sign Operand (.binary op p q) l e) :
      Tail Sign Operand p (t :: (r ++ l)) e

/-- The signs of a line of operands bind as tightly as `k`, and each is that of one operator. -/
structure IsLine (k : ℕ) (Sign : Token → Operator → Prop) : Prop where
  binding_eq : ∀ {t op}, Sign t op → binding t = k
  unique : ∀ {t op op'}, Sign t op → Sign t op' → op = op'

theorem isLine_sumSign : IsLine 1 SumSign where
  binding_eq := by rintro _ _ ⟨⟩ <;> rfl
  unique := by rintro _ _ _ ⟨⟩ ⟨⟩ <;> rfl

theorem isLine_productSign : IsLine 2 ProductSign where
  binding_eq := by rintro _ _ ⟨⟩ <;> rfl
  unique := by rintro _ _ _ ⟨⟩ ⟨⟩ <;> rfl

section Lines

variable {Sign : Token → Operator → Prop} {Operand R : List Token → Phrase → Prop} {n k : ℕ}
  {l r : List Token} {p q e : Phrase} {t : Token} {op : Operator}

theorem Tail.concat (h : Tail Sign Operand p l e) (ht : Sign t op) (hr : Operand r q) :
    Tail Sign Operand p (l ++ t :: r) (.binary op e q) := by
  induction h with
  | nil p =>
    have hlast : Tail Sign Operand p (t :: (r ++ [])) (.binary op p q) := .cons ht hr (.nil _)
    rwa [List.append_nil] at hlast
  | cons ht' hr' _ ih =>
    rw [List.cons_append, List.append_assoc]
    exact .cons ht' hr' ih

theorem IsTerm.exists_tail {l : List Token} {e : Phrase} : IsTerm l e →
    ∃ l₀ p l₁, l = l₀ ++ l₁ ∧ IsUnary l₀ p ∧ Tail ProductSign IsUnary p l₁ e
  | .unary h => ⟨_, _, [], (List.append_nil _).symm, h, .nil _⟩
  | .product hl ht hr => by
    obtain ⟨l₀, p, l₁, rfl, hp, htail⟩ := hl.exists_tail
    exact ⟨l₀, p, _, List.append_assoc .., hp, htail.concat ht hr⟩

theorem IsExpr.exists_tail {l : List Token} {e : Phrase} : IsExpr l e →
    ∃ l₀ p l₁, l = l₀ ++ l₁ ∧ IsTerm l₀ p ∧ Tail SumSign IsTerm p l₁ e
  | .term h => ⟨_, _, [], (List.append_nil _).symm, h, .nil _⟩
  | .sum hl ht hr => by
    obtain ⟨l₀, p, l₁, rfl, hp, htail⟩ := hl.exists_tail
    exact ⟨l₀, p, _, List.append_assoc .., hp, htail.concat ht hr⟩

/-- An operand ends before the tail that follows it. -/
theorem Tail.endsBelow (hline : IsLine k Sign) (h : Tail Sign Operand p l e)
    (hr : EndsBelow k r) : EndsBelow (k + 1) (l ++ r) := by
  cases h with
  | nil => exact hr.mono (Nat.le_succ k)
  | cons ht _ _ =>
    rw [List.cons_append, endsBelow_cons, hline.binding_eq ht]
    exact Nat.lt_succ_self k

theorem Tail.unique (hline : IsLine k Sign) (hoperand : UniqueBelow n (k + 1) Operand)
    {l' r' : List Token} {e' : Phrase} (h : Tail Sign Operand p l e)
    (h' : Tail Sign Operand p l' e') (hlen : l.length < n) (heq : l ++ r = l' ++ r')
    (hr : EndsBelow k r) (hr' : EndsBelow k r') : l = l' ∧ e = e' := by
  induction h generalizing l' with
  | nil p =>
    cases h' with
    | nil => exact ⟨rfl, rfl⟩
    | cons ht _ _ =>
      rw [List.nil_append] at heq
      rw [heq, List.cons_append, endsBelow_cons, hline.binding_eq ht] at hr
      exact absurd hr (Nat.lt_irrefl k)
  | cons ht hq htail ih =>
    cases h' with
    | nil =>
      rw [List.nil_append] at heq
      rw [← heq, List.cons_append, endsBelow_cons, hline.binding_eq ht] at hr'
      exact absurd hr' (Nat.lt_irrefl k)
    | cons ht' hq' htail' =>
      rw [List.length_cons, List.length_append] at hlen
      rw [List.cons_append, List.cons_append, List.append_assoc, List.append_assoc] at heq
      obtain ⟨rfl, hrest⟩ := List.cons.inj heq
      obtain rfl := hline.unique ht ht'
      obtain ⟨rfl, rfl⟩ := hoperand (by omega) hq hq' hrest (htail.endsBelow hline hr)
        (htail'.endsBelow hline hr')
      obtain ⟨rfl, rfl⟩ := ih htail' (by omega) (List.append_cancel_left hrest)
      exact ⟨rfl, rfl⟩

theorem UniqueBelow.of_tails (hline : IsLine k Sign) (hoperand : UniqueBelow n (k + 1) Operand)
    (htails : ∀ l e, R l e → ∃ l₀ p l₁, l = l₀ ++ l₁ ∧ Operand l₀ p ∧
      Tail Sign Operand p l₁ e) : UniqueBelow n k R := by
  intro l l' r r' e e' hlen h h' heq hr hr'
  obtain ⟨l₀, p, l₁, rfl, hp, htail⟩ := htails l e h
  obtain ⟨l₀', p', l₁', rfl, hp', htail'⟩ := htails l' e' h'
  rw [List.append_assoc, List.append_assoc] at heq
  rw [List.length_append] at hlen
  obtain ⟨rfl, rfl⟩ := hoperand (by omega) hp hp' heq (htail.endsBelow hline hr)
    (htail'.endsBelow hline hr')
  obtain ⟨rfl, rfl⟩ := htail.unique hline hoperand htail' (by omega)
    (List.append_cancel_left heq) hr hr'
  exact ⟨rfl, rfl⟩

end Lines

/-! ## Whole formulas -/

/-- The induction is on the number of tokens: parentheses hold an expression with fewer of them. -/
theorem uniqueBelow_expr (n : ℕ) : UniqueBelow n 1 IsExpr := by
  induction n with
  | zero =>
    intro l l' r r' p p' hlen
    exact absurd hlen (Nat.not_lt_zero _)
  | succ n ih =>
    have hprimary : UniqueBelow (n + 1) 4 IsPrimary := unique_primary ih
    have hunary : UniqueBelow (n + 1) 3 IsUnary := fun _ _ _ _ _ _ hlen h => h.unique hprimary hlen
    have hterm : UniqueBelow (n + 1) 2 IsTerm :=
      UniqueBelow.of_tails isLine_productSign hunary fun _ _ => IsTerm.exists_tail
    exact UniqueBelow.of_tails isLine_sumSign hterm fun _ _ => IsExpr.exists_tail

theorem IsExpr.eq_of_isExpr {l : List Token} {p q : Phrase} (h : IsExpr l p) (h' : IsExpr l q) :
    p = q := by
  have hends : EndsBelow 1 [] := by simp [EndsBelow]
  exact (uniqueBelow_expr (l.length + 1) (Nat.lt_succ_self _) h h' rfl hends hends).2

end Formula.Phrase

/-! ## Reading -/

open Formula

/-- Reading gives a tree exactly when the text has tokens that derive a phrase which stands for the
tree. Tokens derive one phrase at most, and a phrase stands for one tree at most. -/
theorem Expr.read_eq_ok_iff_phrase :
    (∀ (t : Text) (e : Expr), Expr.read t = .ok e ↔
      ∃ ts p, Token.read t = .ok ts ∧ Phrase.IsExpr (kinds ts) p ∧ p.Stands e) ∧
    (∀ (l : List Token) (p q : Phrase), Phrase.IsExpr l p → Phrase.IsExpr l q → p = q) ∧
    ∀ (p : Phrase) (e e' : Expr), p.Stands e → p.Stands e' → e = e' := by
  refine ⟨?_, fun _ _ _ => Phrase.IsExpr.eq_of_isExpr, fun _ _ _ => Phrase.Stands.unique⟩
  intro t e
  rw [Expr.read_eq_ok_iff]
  constructor
  · rintro ⟨ts, hts, h⟩
    obtain ⟨p, hp, hs⟩ := isExpr_iff_exists_phrase.mp h
    exact ⟨ts, p, hts, hp, hs⟩
  · rintro ⟨ts, p, hts, hp, hs⟩
    exact ⟨ts, hts, isExpr_iff_exists_phrase.mpr ⟨p, hp, hs⟩⟩

/-- The minus belongs to the literal, the plus is dropped, and the name of the sum has a `v`. -/
theorem Expr.read_product_of_sum :
    Expr.read "-2*vSum(+$1)".toList = .ok (.binary .mul (.number (-2))
      (.call (.aggregate .sum) [.name "$1".toList false])) ∧
    (∀ q, Phrase.IsExpr [.plus, .dollar 1] q → q = .plus (.dollar 1)) ∧
    ∀ e, (Phrase.minus (.number 2)).Stands e → e = .number (-2) := by
  have h := Expr.read_eq_ok_iff_phrase
  have hsum : Phrase.IsExpr [.plus, .dollar 1] (.plus (.dollar 1)) :=
    .term (.unary (.plus (.power (.primary (.dollar 1)))))
  have hcall := Phrase.IsPrimary.call "vSum".toList (.some (.one hsum))
  have hminus : Phrase.IsUnary [.minus, .number 2] (.minus (.number 2)) :=
    .minus (.power (.primary (.number 2)))
  have hliteral : (Phrase.minus (.number 2)).Stands (.number (-2)) := .literal (.number 2)
  have hargs : Phrase.StandAll [.plus (.dollar 1)] [.name "$1".toList false] :=
    .cons (.plus (.dollar 1)) .nil
  have htokens : Token.read "-2*vSum(+$1)".toList = .ok [⟨.minus, 0⟩, ⟨.number 2, 1⟩, ⟨.star, 2⟩,
      ⟨.name "vSum".toList, 3⟩, ⟨.lparen, 7⟩, ⟨.plus, 8⟩, ⟨.dollar 1, 9⟩, ⟨.rparen, 11⟩] := by
    with_unfolding_all rfl
  have hproduct : Phrase.IsExpr
      [.minus, .number 2, .star, .name "vSum".toList, .lparen, .plus, .dollar 1, .rparen]
      (.binary .mul (.minus (.number 2)) (.call "vSum".toList [.plus (.dollar 1)])) :=
    .term (.product (.unary hminus) .star (.power (.primary hcall)))
  have hstands : (Phrase.binary .mul (.minus (.number 2))
      (.call "vSum".toList [.plus (.dollar 1)])).Stands
      (.binary .mul (.number (-2)) (.call (.aggregate .sum) [.name "$1".toList false])) :=
    .binary .mul hliteral (.call (.inr ⟨rfl, rfl⟩) hargs rfl)
  refine ⟨?_, fun q hq => h.2.1 _ q _ hq hsum, fun e he => h.2.2 _ e _ he hliteral⟩
  exact (h.1 _ _).mpr ⟨_, _, htokens, hproduct, hstands⟩

end Rollup
