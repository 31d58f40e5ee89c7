import Rollup.Fault

/-! # Runs that fail

What is known of the failures of every step is known of the failure of a run.
-/

namespace Rollup

/-- A run that does not fail, or whose failure satisfies a condition. -/
def FailsWith {ε α : Type} (p : ε → Prop) (x : Except ε α) : Prop := ∀ e, x = .error e → p e

section

variable {ε ε' α β : Type} {p : ε → Prop} {x : Except ε α}

theorem failsWith_ok (a : α) : FailsWith p (.ok a : Except ε α) := by
  rintro e ⟨⟩

theorem failsWith_error {e : ε} (h : p e) : FailsWith p (.error e : Except ε α) := by
  rintro e' ⟨⟩
  exact h

theorem FailsWith.bind {f : α → Except ε β} (hx : FailsWith p x)
    (hf : ∀ a, x = .ok a → FailsWith p (f a)) : FailsWith p (x >>= f) := by
  intro e h
  rcases eq_error_or_of_bind_eq_error h with h | ⟨a, ha, h⟩
  · exact hx e h
  · exact hf a ha e h

theorem FailsWith.map (hx : FailsWith p x) (f : α → β) : FailsWith p (x.map f) :=
  fun e h => hx e (eq_error_of_map_eq_error h)

theorem FailsWith.mapError {q : ε' → Prop} {f : ε → ε'} (hx : FailsWith p x)
    (hf : ∀ e, p e → q (f e)) : FailsWith q (x.mapError f) := by
  intro e' h
  obtain ⟨e, he, rfl⟩ := exists_of_mapError_eq_error h
  exact hf e (hx e he)

theorem failsWith_mapM {xs : List α} {f : α → Except ε β} (h : ∀ a ∈ xs, FailsWith p (f a)) :
    FailsWith p (xs.mapM f) := by
  induction xs with
  | nil => exact failsWith_ok []
  | cons a xs ih =>
    obtain ⟨ha, hxs⟩ := List.forall_mem_cons.mp h
    rw [List.mapM_cons]
    exact ha.bind fun _ _ => (ih hxs).bind fun _ _ => failsWith_ok _

end

end Rollup
