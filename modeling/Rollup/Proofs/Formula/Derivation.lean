import Rollup.Proofs.Formula.Grammar

/-! # What is read has a derivation

The tokens that a reader takes stand for the tree that it gives.
-/

namespace Rollup

namespace Formula

variable {stop : ℕ}

theorem Reads.length_lt {α : Type} {ts rest : Tokens} {a : α} {x : Except FormulaFault (Step α ts)}
    (h : Reads x a rest) : rest.length < ts.length := h.1

/-! ## One step of every reader -/

theorem exists_of_expr {ts us : Tokens} {e : Expr} (h : Reads (expr stop ts) e us) :
    ∃ lhs rest, Reads (term stop ts) lhs rest ∧ Reads (sumTail stop lhs rest) e us := by
  obtain ⟨_, h⟩ := h
  rw [expr] at h
  obtain ⟨⟨⟨lhs, rest⟩, _⟩, hlhs, h⟩ := exists_of_bind_eq_ok h
  obtain ⟨⟨⟨_, _⟩, _⟩, htail, h⟩ := exists_of_bind_eq_ok h
  cases h
  exact ⟨lhs, rest, ⟨_, hlhs⟩, ⟨_, htail⟩⟩

theorem exists_of_term {ts us : Tokens} {e : Expr} (h : Reads (term stop ts) e us) :
    ∃ lhs rest, Reads (unary stop ts) lhs rest ∧ Reads (productTail stop lhs rest) e us := by
  obtain ⟨_, h⟩ := h
  rw [term] at h
  obtain ⟨⟨⟨lhs, rest⟩, _⟩, hlhs, h⟩ := exists_of_bind_eq_ok h
  obtain ⟨⟨⟨_, _⟩, _⟩, htail, h⟩ := exists_of_bind_eq_ok h
  cases h
  exact ⟨lhs, rest, ⟨_, hlhs⟩, ⟨_, htail⟩⟩

theorem cases_of_sumTail {ts us : Tokens} {lhs e : Expr} (h : Reads (sumTail stop lhs ts) e us) :
    e = lhs ∧ us = ts ∨ ∃ t op rhs vs rest, ts = t :: vs ∧ sumOperator? t.token = some op ∧
      Reads (term stop vs) rhs rest ∧ Reads (sumTail stop (.binary op lhs rhs) rest) e us := by
  obtain ⟨_, h⟩ := h
  cases ts with
  | nil =>
    rw [sumTail] at h
    cases h
    exact .inl ⟨rfl, rfl⟩
  | cons t vs =>
    rw [sumTail] at h
    split at h
    · cases h
      exact .inl ⟨rfl, rfl⟩
    case h_2 op hop =>
      obtain ⟨⟨⟨rhs, rest⟩, _⟩, hrhs, h⟩ := exists_of_bind_eq_ok h
      obtain ⟨⟨⟨_, _⟩, _⟩, htail, h⟩ := exists_of_bind_eq_ok h
      cases h
      exact .inr ⟨t, op, rhs, vs, rest, rfl, hop, ⟨_, hrhs⟩, ⟨_, htail⟩⟩

theorem cases_of_productTail {ts us : Tokens} {lhs e : Expr}
    (h : Reads (productTail stop lhs ts) e us) :
    e = lhs ∧ us = ts ∨ ∃ t op rhs vs rest, ts = t :: vs ∧ productOperator? t.token = some op ∧
      Reads (unary stop vs) rhs rest ∧ Reads (productTail stop (.binary op lhs rhs) rest) e us := by
  obtain ⟨_, h⟩ := h
  cases ts with
  | nil =>
    rw [productTail] at h
    cases h
    exact .inl ⟨rfl, rfl⟩
  | cons t vs =>
    rw [productTail] at h
    split at h
    · cases h
      exact .inl ⟨rfl, rfl⟩
    case h_2 op hop =>
      obtain ⟨⟨⟨rhs, rest⟩, _⟩, hrhs, h⟩ := exists_of_bind_eq_ok h
      obtain ⟨⟨⟨_, _⟩, _⟩, htail, h⟩ := exists_of_bind_eq_ok h
      cases h
      exact .inr ⟨t, op, rhs, vs, rest, rfl, hop, ⟨_, hrhs⟩, ⟨_, htail⟩⟩

theorem cases_of_unary {ts us : Tokens} {e : Expr} (h : Reads (unary stop ts) e us) :
    (∃ offset vs x, ts = ⟨.minus, offset⟩ :: vs ∧ Reads (unary stop vs) x us ∧ e = negated x) ∨
      (∃ offset vs, ts = ⟨.plus, offset⟩ :: vs ∧ Reads (unary stop vs) e us) ∨
      Reads (power stop ts) e us := by
  obtain ⟨_, h⟩ := h
  rw [unary.eq_def] at h
  split at h
  case h_1 =>
    obtain ⟨⟨⟨x, _⟩, _⟩, hx, h⟩ := exists_of_bind_eq_ok h
    cases h
    exact .inl ⟨_, _, x, rfl, ⟨_, hx⟩, rfl⟩
  case h_2 =>
    obtain ⟨⟨⟨_, _⟩, _⟩, hx, h⟩ := exists_of_bind_eq_ok h
    cases h
    exact .inr (.inl ⟨_, _, rfl, ⟨_, hx⟩⟩)
  case h_3 => exact .inr (.inr ⟨_, h⟩)

theorem cases_of_power {ts us : Tokens} {e : Expr} (h : Reads (power stop ts) e us) :
    Reads (primary stop ts) e us ∨ ∃ base exponent offset rest,
      Reads (primary stop ts) base (⟨.caret, offset⟩ :: rest) ∧
        Reads (unary stop rest) exponent us ∧ e = .binary .pow base exponent := by
  obtain ⟨_, h⟩ := h
  rw [power] at h
  obtain ⟨⟨⟨base, rest⟩, _⟩, hbase, h⟩ := exists_of_bind_eq_ok h
  dsimp only at h
  split at h
  case h_1 =>
    obtain ⟨⟨⟨exponent, _⟩, _⟩, hexponent, h⟩ := exists_of_bind_eq_ok h
    cases h
    exact .inr ⟨base, exponent, _, _, ⟨_, hbase⟩, ⟨_, hexponent⟩, rfl⟩
  case h_2 =>
    cases h
    exact .inl ⟨_, hbase⟩

theorem cases_of_primary {ts us : Tokens} {e : Expr} (h : Reads (primary stop ts) e us) :
    (∃ t offset, ts = ⟨t, offset⟩ :: us ∧ IsPrimary [t] e) ∨
      (∃ t f offset offset' vs args, ts = ⟨.name t, offset⟩ :: ⟨.lparen, offset'⟩ :: vs ∧
        Function.lookup? t = some f ∧ Reads (arguments stop vs) args us ∧
        f.arity.accepts args.length ∧ e = .call f args) ∨
      ∃ offset offset' vs, ts = ⟨.lparen, offset⟩ :: vs ∧
        Reads (expr stop vs) e (⟨.rparen, offset'⟩ :: us) := by
  obtain ⟨_, h⟩ := h
  rw [primary.eq_def] at h
  split at h
  case h_1 => cases h
  case h_2 =>
    cases h
    exact .inl ⟨_, _, rfl, .number _⟩
  case h_3 =>
    cases h
    exact .inl ⟨_, _, rfl, .quoted _⟩
  case h_4 =>
    cases h
    exact .inl ⟨_, _, rfl, .dollar _⟩
  case h_5 =>
    split at h
    · cases h
    case h_2 f hf =>
      obtain ⟨⟨⟨args, _⟩, _⟩, hargs, h⟩ := exists_of_bind_eq_ok h
      dsimp only at h
      split at h
      case isTrue harity =>
        cases h
        exact .inr (.inl ⟨_, f, _, _, _, args, rfl, hf, ⟨_, hargs⟩, harity, rfl⟩)
      case isFalse => cases h
  case h_6 =>
    cases h
    exact .inl ⟨_, _, rfl, .name _⟩
  case h_7 =>
    obtain ⟨⟨⟨_, _⟩, _⟩, he, h⟩ := exists_of_bind_eq_ok h
    dsimp only at h
    split at h
    case h_1 =>
      cases h
      exact .inr (.inr ⟨_, _, _, rfl, ⟨_, he⟩⟩)
    case h_2 => cases h
  case h_8 => cases h

theorem cases_of_arguments {ts us : Tokens} {args : List Expr}
    (h : Reads (arguments stop ts) args us) :
    (∃ offset, ts = ⟨.rparen, offset⟩ :: us ∧ args = []) ∨
      Reads (argumentList stop ts) args us := by
  obtain ⟨_, h⟩ := h
  rw [arguments.eq_def] at h
  split at h
  case h_1 =>
    cases h
    exact .inl ⟨_, rfl, rfl⟩
  case h_2 => exact .inr ⟨_, h⟩

theorem cases_of_argumentList {ts us : Tokens} {args : List Expr}
    (h : Reads (argumentList stop ts) args us) : ∃ e offset rest,
      Reads (expr stop ts) e rest ∧ ((rest = ⟨.rparen, offset⟩ :: us ∧ args = [e]) ∨
        ∃ vs es, rest = ⟨.comma, offset⟩ :: vs ∧ Reads (argumentList stop vs) es us ∧
          args = e :: es) := by
  obtain ⟨_, h⟩ := h
  rw [argumentList] at h
  obtain ⟨⟨⟨e, rest⟩, _⟩, he, h⟩ := exists_of_bind_eq_ok h
  dsimp only at h
  split at h
  case h_1 =>
    obtain ⟨⟨⟨es, _⟩, _⟩, hes, h⟩ := exists_of_bind_eq_ok h
    cases h
    exact ⟨e, _, _, ⟨_, he⟩, .inr ⟨_, es, rfl, ⟨_, hes⟩, rfl⟩⟩
  case h_2 =>
    cases h
    exact ⟨e, _, _, ⟨_, he⟩, .inl ⟨rfl, rfl⟩⟩
  case h_3 => cases h

/-! ## Whole runs of the readers -/

-- The recursion is that of the readers, on the tokens that are left and then on the production.
mutual

theorem isExpr_of_expr {ts us : Tokens} {e : Expr} (h : Reads (expr stop ts) e us) :
    ∃ vs, ts = vs ++ us ∧ IsExpr (kinds vs) e := by
  obtain ⟨lhs, rest, hlhs, htail⟩ := exists_of_expr h
  obtain ⟨vs, rfl, hvs⟩ := isTerm_of_term hlhs
  have hlt := hlhs.length_lt
  obtain ⟨ws, rfl, hws⟩ := isExpr_of_sumTail htail (.term hvs)
  exact ⟨vs ++ ws, (List.append_assoc ..).symm, by rwa [kinds_append]⟩
termination_by (ts.length, 6)

theorem isExpr_of_sumTail {l : List Token} {ts us : Tokens} {lhs e : Expr}
    (h : Reads (sumTail stop lhs ts) e us) (hl : IsExpr l lhs) :
    ∃ vs, ts = vs ++ us ∧ IsExpr (l ++ kinds vs) e := by
  obtain ⟨rfl, rfl⟩ | ⟨t, op, rhs, vs, rest, rfl, hop, hrhs, htail⟩ := cases_of_sumTail h
  · exact ⟨[], rfl, by simpa using hl⟩
  · obtain ⟨ws, rfl, hws⟩ := isTerm_of_term hrhs
    have hlt := hrhs.length_lt
    obtain ⟨xs, rfl, hxs⟩ := isExpr_of_sumTail htail (hl.sum hop hws)
    exact ⟨t :: ws ++ xs, by simp, by simpa using hxs⟩
termination_by (ts.length, 0)

theorem isTerm_of_term {ts us : Tokens} {e : Expr} (h : Reads (term stop ts) e us) :
    ∃ vs, ts = vs ++ us ∧ IsTerm (kinds vs) e := by
  obtain ⟨lhs, rest, hlhs, htail⟩ := exists_of_term h
  obtain ⟨vs, rfl, hvs⟩ := isUnary_of_unary hlhs
  have hlt := hlhs.length_lt
  obtain ⟨ws, rfl, hws⟩ := isTerm_of_productTail htail (.unary hvs)
  exact ⟨vs ++ ws, (List.append_assoc ..).symm, by rwa [kinds_append]⟩
termination_by (ts.length, 5)

theorem isTerm_of_productTail {l : List Token} {ts us : Tokens} {lhs e : Expr}
    (h : Reads (productTail stop lhs ts) e us) (hl : IsTerm l lhs) :
    ∃ vs, ts = vs ++ us ∧ IsTerm (l ++ kinds vs) e := by
  obtain ⟨rfl, rfl⟩ | ⟨t, op, rhs, vs, rest, rfl, hop, hrhs, htail⟩ := cases_of_productTail h
  · exact ⟨[], rfl, by simpa using hl⟩
  · obtain ⟨ws, rfl, hws⟩ := isUnary_of_unary hrhs
    have hlt := hrhs.length_lt
    obtain ⟨xs, rfl, hxs⟩ := isTerm_of_productTail htail (hl.product hop hws)
    exact ⟨t :: ws ++ xs, by simp, by simpa using hxs⟩
termination_by (ts.length, 0)

theorem isUnary_of_unary {ts us : Tokens} {e : Expr} (h : Reads (unary stop ts) e us) :
    ∃ vs, ts = vs ++ us ∧ IsUnary (kinds vs) e := by
  obtain ⟨offset, vs, x, rfl, hx, rfl⟩ | ⟨offset, vs, rfl, hx⟩ | h := cases_of_unary h
  · obtain ⟨ws, rfl, hws⟩ := isUnary_of_unary hx
    exact ⟨⟨.minus, offset⟩ :: ws, rfl, .minus hws⟩
  · obtain ⟨ws, rfl, hws⟩ := isUnary_of_unary hx
    exact ⟨⟨.plus, offset⟩ :: ws, rfl, .plus hws⟩
  · obtain ⟨vs, rfl, hvs⟩ := isPower_of_power h
    exact ⟨vs, rfl, .power hvs⟩
termination_by (ts.length, 4)

theorem isPower_of_power {ts us : Tokens} {e : Expr} (h : Reads (power stop ts) e us) :
    ∃ vs, ts = vs ++ us ∧ IsPower (kinds vs) e := by
  obtain h | ⟨base, exponent, offset, rest, hbase, hexponent, rfl⟩ := cases_of_power h
  · obtain ⟨vs, rfl, hvs⟩ := isPrimary_of_primary h
    exact ⟨vs, rfl, .primary hvs⟩
  · obtain ⟨vs, rfl, hvs⟩ := isPrimary_of_primary hbase
    have hlt := hbase.length_lt
    obtain ⟨ws, rfl, hws⟩ := isUnary_of_unary hexponent
    exact ⟨vs ++ ⟨.caret, offset⟩ :: ws, by simp, by simpa using IsPower.power hvs hws⟩
termination_by (ts.length, 3)

theorem isPrimary_of_primary {ts us : Tokens} {e : Expr} (h : Reads (primary stop ts) e us) :
    ∃ vs, ts = vs ++ us ∧ IsPrimary (kinds vs) e := by
  obtain ⟨t, offset, rfl, ht⟩ | ⟨t, f, offset, offset', vs, args, rfl, hf, hargs, harity, rfl⟩ |
    ⟨offset, offset', vs, rfl, he⟩ := cases_of_primary h
  · exact ⟨[⟨t, offset⟩], rfl, ht⟩
  · obtain ⟨ws, o, rfl, hws⟩ := isArguments_of_arguments hargs
    exact ⟨⟨.name t, offset⟩ :: ⟨.lparen, offset'⟩ :: (ws ++ [⟨.rparen, o⟩]), by simp,
      by simpa using .call hf hws harity⟩
  · obtain ⟨ws, rfl, hws⟩ := isExpr_of_expr he
    exact ⟨⟨.lparen, offset⟩ :: (ws ++ [⟨.rparen, offset'⟩]), by simp, by simpa using .parens hws⟩
termination_by (ts.length, 2)

theorem isArguments_of_arguments {ts us : Tokens} {args : List Expr}
    (h : Reads (arguments stop ts) args us) :
    ∃ vs offset, ts = vs ++ ⟨.rparen, offset⟩ :: us ∧ IsArguments (kinds vs) args := by
  obtain ⟨offset, rfl, rfl⟩ | h := cases_of_arguments h
  · exact ⟨[], offset, rfl, .none⟩
  · obtain ⟨vs, offset, rfl, hvs⟩ := isArgumentList_of_argumentList h
    exact ⟨vs, offset, rfl, .some hvs⟩
termination_by (ts.length, 8)

theorem isArgumentList_of_argumentList {ts us : Tokens} {args : List Expr}
    (h : Reads (argumentList stop ts) args us) :
    ∃ vs offset, ts = vs ++ ⟨.rparen, offset⟩ :: us ∧ IsArgumentList (kinds vs) args := by
  obtain ⟨e, offset, rest, he, ⟨rfl, rfl⟩ | ⟨vs, es, rfl, hes, rfl⟩⟩ := cases_of_argumentList h
  · obtain ⟨ws, rfl, hws⟩ := isExpr_of_expr he
    exact ⟨ws, offset, rfl, .one hws⟩
  · obtain ⟨ws, rfl, hws⟩ := isExpr_of_expr he
    have hlt := he.length_lt
    obtain ⟨xs, o, rfl, hxs⟩ := isArgumentList_of_argumentList hes
    exact ⟨ws ++ ⟨.comma, offset⟩ :: xs, o, by simp, by simpa using IsArgumentList.cons hws hxs⟩
termination_by (ts.length, 7)

end

theorem reads_expr_iff (stop : ℕ) {ts : Tokens} {e : Expr} :
    Reads (expr stop ts) e [] ↔ IsExpr (kinds ts) e := by
  constructor
  · intro h
    obtain ⟨vs, rfl, hvs⟩ := isExpr_of_expr h
    rwa [List.append_nil]
  · intro h
    have hread : Reads (expr stop (ts ++ [])) e [] :=
      h.reads rfl (by simp [EndsPower]) (by simp) (sumTail_of_ends (by simp))
    rwa [List.append_nil] at hread

theorem readFrom_of_isWhite {offset : ℕ} {c : Char} {t : Text} (h : Text.isWhite c) :
    Token.readFrom offset (c :: t) = Token.readFrom (offset + c.utf8Size) t := by
  rw [Token.readFrom, if_pos h]

theorem readFrom_of_scan {offset used : ℕ} {c : Char} {t : Text} {token : Token} {ts : Tokens}
    (hwhite : Text.isWhite c = false) (hscan : Token.scan c t = .ok (token, used))
    (hts : Token.readFrom (offset + Text.byteSize (c :: t.take used)) (t.drop used) = .ok ts) :
    Token.readFrom offset (c :: t) = .ok (⟨token, offset⟩ :: ts) := by
  rw [Token.readFrom, if_neg (by simp [hwhite]), hscan]
  dsimp only
  rw [hts]
  rfl

theorem readFrom_of_isBlank {t : Text} {offset : ℕ} (h : Text.isBlank t) :
    Token.readFrom offset t = .ok [] := by
  induction t generalizing offset with
  | nil => rw [Token.readFrom]
  | cons c t ih =>
    simp only [Text.isBlank, List.all_cons, Bool.and_eq_true] at h
    rw [readFrom_of_isWhite h.1, ih h.2]

end Formula

/-- A text reads as a tree when its tokens stand for it. -/
theorem Expr.read_eq_ok_iff {t : Text} {e : Expr} :
    Expr.read t = .ok e ↔ ∃ ts, Token.read t = .ok ts ∧ Formula.IsExpr (Formula.kinds ts) e := by
  unfold Expr.read
  constructor
  · intro h
    split at h
    · cases h
    obtain ⟨ts, hts, h⟩ := exists_of_bind_eq_ok h
    obtain ⟨⟨⟨_, rest⟩, _⟩, he, h⟩ := exists_of_bind_eq_ok h
    dsimp only at h
    split at h
    · cases h
      exact ⟨ts, hts, (Formula.reads_expr_iff _).mp ⟨_, he⟩⟩
    · cases h
  · rintro ⟨ts, hts, h⟩
    obtain ⟨_, he⟩ := (Formula.reads_expr_iff (Text.byteSize t)).mpr h
    split
    case isTrue hblank =>
      -- a blank text has no tokens, and no tree has none
      cases (Formula.readFrom_of_isBlank hblank).symm.trans hts
      obtain ⟨_, _, hnil, -⟩ := h.exists_cons
      cases hnil
    case isFalse =>
      simp only [bind, Except.bind, hts, he]
      rfl

end Rollup
