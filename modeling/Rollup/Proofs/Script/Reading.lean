import Mathlib.Data.Nat.Notation
import Rollup.Script.Term

/-! # One step of reading a script

What it takes for each reader of a script to succeed: what the tokens start with, what the readers
that it calls give, and how the term is made from that.
-/

namespace Rollup.Script

variable {stop : ℕ}

/-- A reader succeeds with a result and the tokens after it. -/
def Reads {α : Type} {P : α × Tokens → Prop} (x : Except ScriptFault { r // P r }) (a : α)
    (rest : Tokens) : Prop := ∃ h, x = .ok ⟨(a, rest), h⟩

theorem Reads.length_lt {α : Type} {ts rest : Tokens} {a : α} {x : Except ScriptFault (Step α ts)}
    (h : Reads x a rest) : rest.length < ts.length := h.1

theorem exists_of_term {least : ℕ} {ts us : Tokens} {e : Term}
    (h : Reads (term stop least ts) e us) :
    ∃ lhs rest, Reads (unary stop ts) lhs rest ∧ Reads (operators stop least lhs rest) e us := by
  obtain ⟨_, h⟩ := h
  rw [term] at h
  obtain ⟨⟨⟨lhs, rest⟩, _⟩, hlhs, h⟩ := exists_of_bind_eq_ok h
  obtain ⟨⟨⟨_, _⟩, _⟩, htail, h⟩ := exists_of_bind_eq_ok h
  cases h
  exact ⟨lhs, rest, ⟨_, hlhs⟩, ⟨_, htail⟩⟩

theorem cases_of_operators {least : ℕ} {ts us : Tokens} {lhs e : Term}
    (h : Reads (operators stop least lhs ts) e us) :
    e = lhs ∧ us = ts ∨ ∃ t op rhs vs rest, ts = t :: vs ∧
      BinaryOperator.ofToken? t.token = some op ∧ Reads (term stop op.rightStrength vs) rhs rest ∧
        Reads (operators stop least (.binary op lhs rhs) rest) e us := by
  obtain ⟨_, h⟩ := h
  cases ts with
  | nil =>
    rw [operators] at h
    cases h
    exact .inl ⟨rfl, rfl⟩
  | cons t vs =>
    rw [operators] at h
    split at h
    · cases h
      exact .inl ⟨rfl, rfl⟩
    case h_2 op hop =>
      split at h
      · cases h
        exact .inl ⟨rfl, rfl⟩
      · obtain ⟨⟨⟨rhs, rest⟩, _⟩, hrhs, h⟩ := exists_of_bind_eq_ok h
        obtain ⟨e', he', h⟩ := exists_of_bind_eq_ok h
        obtain ⟨⟨⟨_, _⟩, _⟩, htail, h⟩ := exists_of_bind_eq_ok h
        cases h
        have he' : e' = .binary op lhs rhs := by
          unfold joined at he'
          split at he'
          · cases he'
          · cases he'
            rfl
        subst he'
        exact .inr ⟨t, op, rhs, vs, rest, rfl, hop, ⟨_, hrhs⟩, ⟨_, htail⟩⟩

theorem cases_of_unary {ts us : Tokens} {e : Term} (h : Reads (unary stop ts) e us) :
    (∃ t op vs x, ts = t :: vs ∧ unaryOperator? t.token = some op ∧ Reads (unary stop vs) x us ∧
      e = signed op x) ∨
      ∃ x rest, Reads (primary stop ts) x rest ∧ Reads (accesses stop x rest) e us := by
  obtain ⟨_, h⟩ := h
  cases ts with
  | nil =>
    rw [unary] at h
    cases h
  | cons t vs =>
    rw [unary] at h
    split at h
    case h_1 op hop =>
      obtain ⟨⟨⟨x, _⟩, _⟩, hx, h⟩ := exists_of_bind_eq_ok h
      cases h
      exact .inl ⟨t, op, vs, x, rfl, hop, ⟨_, hx⟩, rfl⟩
    case h_2 =>
      obtain ⟨⟨⟨x, rest⟩, _⟩, hx, h⟩ := exists_of_bind_eq_ok h
      obtain ⟨⟨⟨_, _⟩, _⟩, haccesses, h⟩ := exists_of_bind_eq_ok h
      cases h
      exact .inr ⟨x, rest, ⟨_, hx⟩, ⟨_, haccesses⟩⟩

/-- How a term without operators and accesses is read. -/
inductive PrimaryStep (stop : ℕ) : Tokens → Term → Tokens → Prop
  | int (n : Int) (offset : ℕ) (us : Tokens) : PrimaryStep stop (⟨.int n, offset⟩ :: us) (.int n) us
  | float (x : Float) (offset : ℕ) (us : Tokens) :
      PrimaryStep stop (⟨.float x, offset⟩ :: us) (.float x) us
  | string (t : Text) (offset : ℕ) (us : Tokens) :
      PrimaryStep stop (⟨.string t, offset⟩ :: us) (.string t) us
  | list {offset : ℕ} {ts us : Tokens} {es : List Term}
      (h : Reads (terms stop .rbracket ts) es us) :
      PrimaryStep stop (⟨.symbol .lbracket, offset⟩ :: ts) (.list es) us
  | parens {offset offset' : ℕ} {ts us : Tokens} {e : Term}
      (h : Reads (term stop 0 ts) e (⟨.symbol .rparen, offset'⟩ :: us)) :
      PrimaryStep stop (⟨.symbol .lparen, offset⟩ :: ts) e us
  | true (offset : ℕ) (us : Tokens) :
      PrimaryStep stop (⟨.word "true".toList, offset⟩ :: us) (.bool true) us
  | false (offset : ℕ) (us : Tokens) :
      PrimaryStep stop (⟨.word "false".toList, offset⟩ :: us) (.bool false) us
  | call {name : Text} {offset offset' : ℕ} {ts us : Tokens} {args : List Term}
      (h : Reads (terms stop .rparen ts) args us) :
      PrimaryStep stop (⟨.word name, offset⟩ :: ⟨.symbol .lparen, offset'⟩ :: ts)
        (.call name args) us
  | row (offset : ℕ) (us : Tokens) :
      PrimaryStep stop (⟨.word rowName, offset⟩ :: us) (.row offset) us

theorem primaryStep_of_primary {ts us : Tokens} {e : Term} (h : Reads (primary stop ts) e us) :
    PrimaryStep stop ts e us := by
  obtain ⟨_, h⟩ := h
  rw [primary.eq_def] at h
  split at h
  case h_1 => cases h
  case h_2 =>
    cases h
    exact .int ..
  case h_3 =>
    cases h
    exact .float ..
  case h_4 =>
    cases h
    exact .string ..
  case h_5 =>
    obtain ⟨⟨⟨es, _⟩, _⟩, hes, h⟩ := exists_of_bind_eq_ok h
    cases h
    exact .list ⟨_, hes⟩
  case h_6 =>
    obtain ⟨⟨⟨_, _⟩, _⟩, he, h⟩ := exists_of_bind_eq_ok h
    dsimp only at h
    split at h
    case h_1 =>
      cases h
      exact .parens ⟨_, he⟩
    case h_2 => cases h
  case h_7 name offset ts =>
    split at h
    case isTrue hname =>
      cases h
      rw [hname]
      exact .true ..
    split at h
    case isTrue hname =>
      cases h
      rw [hname]
      exact .false ..
    split at h
    · cases h
    split at h
    case h_1 =>
      obtain ⟨⟨⟨args, _⟩, _⟩, hargs, h⟩ := exists_of_bind_eq_ok h
      cases h
      exact .call ⟨_, hargs⟩
    case h_2 =>
      split at h
      case isTrue hname =>
        cases h
        rw [hname]
        exact .row ..
      case isFalse => cases h
  case h_8 => cases h

/-- How one element, property or method after a term is read, or that there is none. -/
inductive AccessStep (stop : ℕ) (e : Term) : Tokens → Term → Tokens → Prop
  | index {index e' : Term} {offset offset' : ℕ} {ts rest us : Tokens}
      (hindex : Reads (term stop 0 ts) index (⟨.symbol .rbracket, offset'⟩ :: rest))
      (h : Reads (accesses stop (.element e index) rest) e' us) :
      AccessStep stop e (⟨.symbol .lbracket, offset⟩ :: ts) e' us
  | method {name : Text} {args : List Term} {e' : Term} {o₁ o₂ o₃ : ℕ} {ts rest us : Tokens}
      (hargs : Reads (terms stop .rparen ts) args rest)
      (h : Reads (accesses stop (.call name (e :: args)) rest) e' us) :
      AccessStep stop e (⟨.symbol .dot, o₁⟩ :: ⟨.word name, o₂⟩ :: ⟨.symbol .lparen, o₃⟩ :: ts)
        e' us
  | property {name : Text} {e' : Term} {o₁ o₂ : ℕ} {ts us : Tokens}
      (h : Reads (accesses stop (.property e name) ts) e' us) :
      AccessStep stop e (⟨.symbol .dot, o₁⟩ :: ⟨.word name, o₂⟩ :: ts) e' us
  | none {ts : Tokens} (h : ∀ offset us, ts ≠ ⟨.symbol .lbracket, offset⟩ :: us) :
      AccessStep stop e ts e ts

theorem accessStep_of_accesses {ts us : Tokens} {e e' : Term}
    (h : Reads (accesses stop e ts) e' us) : AccessStep stop e ts e' us := by
  obtain ⟨_, h⟩ := h
  rw [accesses.eq_def] at h
  split at h
  case h_1 =>
    split at h
    case isTrue =>
      obtain ⟨⟨⟨index, _⟩, _⟩, hindex, h⟩ := exists_of_bind_eq_ok h
      dsimp only at h
      split at h
      case h_1 =>
        obtain ⟨⟨⟨_, _⟩, _⟩, haccesses, h⟩ := exists_of_bind_eq_ok h
        cases h
        exact .index ⟨_, hindex⟩ ⟨_, haccesses⟩
      case h_2 => cases h
    case isFalse => cases h
  case h_2 =>
    obtain ⟨⟨⟨args, _⟩, _⟩, hargs, h⟩ := exists_of_bind_eq_ok h
    obtain ⟨⟨⟨_, _⟩, _⟩, haccesses, h⟩ := exists_of_bind_eq_ok h
    cases h
    exact .method ⟨_, hargs⟩ ⟨_, haccesses⟩
  case h_3 =>
    obtain ⟨⟨⟨_, _⟩, _⟩, haccesses, h⟩ := exists_of_bind_eq_ok h
    cases h
    exact .property ⟨_, haccesses⟩
  case h_4 => cases h
  case h_5 hbracket _ _ _ =>
    cases h
    exact .none fun offset us => hbracket offset us

theorem cases_of_terms {closing : Symbol} {ts us : Tokens} {es : List Term}
    (h : Reads (terms stop closing ts) es us) :
    (∃ t, ts = t :: us ∧ t.token = .symbol closing ∧ es = []) ∨
      Reads (termList stop closing ts) es us := by
  obtain ⟨_, h⟩ := h
  cases ts with
  | nil =>
    rw [terms] at h
    cases h
  | cons t ts =>
    rw [terms] at h
    split at h
    case h_1 s hs =>
      split at h
      case isTrue hclosing =>
        cases h
        exact .inl ⟨t, rfl, hclosing ▸ hs, rfl⟩
      case isFalse => exact .inr ⟨_, h⟩
    case h_2 => exact .inr ⟨_, h⟩

theorem cases_of_termList {closing : Symbol} {ts us : Tokens} {es : List Term}
    (h : Reads (termList stop closing ts) es us) :
    ∃ e t rest, Reads (term stop 0 ts) e (t :: rest) ∧
      ((t.token = .symbol closing ∧ rest = us ∧ es = [e]) ∨ ∃ es', t.token = .symbol .comma ∧
        Reads (terms stop closing rest) es' us ∧ es = e :: es') := by
  obtain ⟨_, h⟩ := h
  rw [termList] at h
  obtain ⟨⟨⟨e, rest⟩, _⟩, he, h⟩ := exists_of_bind_eq_ok h
  dsimp only at h
  split at h
  · cases h
  case h_2 t rest _ =>
    split at h
    case h_1 hcomma =>
      obtain ⟨⟨⟨es', _⟩, _⟩, hes', h⟩ := exists_of_bind_eq_ok h
      cases h
      exact ⟨e, t, rest, ⟨_, he⟩, .inr ⟨es', hcomma, ⟨_, hes'⟩, rfl⟩⟩
    case h_2 s _ hs =>
      split at h
      case isTrue hclosing =>
        cases h
        exact ⟨e, t, _, ⟨_, he⟩, .inl ⟨hclosing ▸ hs, rfl, rfl⟩⟩
      case isFalse => cases h
    case h_3 => cases h

end Rollup.Script
