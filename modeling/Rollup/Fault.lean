import Rollup.Text.Basic

/-! # Faults in a text -/

namespace Rollup

/-- A problem with a text, and the byte offset at which it was found. -/
structure Fault (Problem : Type) where
  problem : Problem
  offset : Nat
deriving DecidableEq, Repr

/-- The wording of a fault, given that of its problem. -/
def Fault.message {Problem : Type} (wording : Problem → Text) (f : Fault Problem) : Text :=
  wording f.problem ++ " (at offset ".toList ++ Text.ofNat f.offset ++ [')']

/-! ## Steps that can fail -/

section Steps

variable {ε α β : Type} {x : Except ε α} {b : β}

theorem exists_of_bind_eq_ok {f : α → Except ε β} (h : x >>= f = .ok b) :
    ∃ a, x = .ok a ∧ f a = .ok b := by
  cases x with
  | error e => cases h
  | ok a => exact ⟨a, rfl, h⟩

theorem exists_of_map_eq_ok {f : α → β} (h : x.map f = .ok b) : ∃ a, x = .ok a ∧ f a = b := by
  cases x with
  | error e => cases h
  | ok a => exact ⟨a, rfl, Except.ok.inj h⟩

theorem eq_error_or_of_bind_eq_error {f : α → Except ε β} {e : ε} (h : x >>= f = .error e) :
    x = .error e ∨ ∃ a, x = .ok a ∧ f a = .error e := by
  cases x with
  | error e' =>
    cases h
    exact .inl rfl
  | ok a => exact .inr ⟨a, rfl, h⟩

theorem eq_error_of_map_eq_error {f : α → β} {e : ε} (h : x.map f = .error e) : x = .error e := by
  cases x with
  | error e' => exact congrArg Except.error (Except.error.inj h)
  | ok a => cases h

theorem exists_of_mapError_eq_error {ε' : Type} {f : ε → ε'} {e' : ε'}
    (h : x.mapError f = .error e') : ∃ e, x = .error e ∧ f e = e' := by
  cases x with
  | error e => exact ⟨e, rfl, Except.error.inj h⟩
  | ok a => cases h

theorem eq_ok_of_mapError_eq_ok {ε' : Type} {f : ε → ε'} {a : α} (h : x.mapError f = .ok a) :
    x = .ok a := by
  cases x with
  | error e => cases h
  | ok a =>
    cases h
    rfl

end Steps

end Rollup
