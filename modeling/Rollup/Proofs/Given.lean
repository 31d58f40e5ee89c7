import Mathlib.Data.List.Basic
import Mathlib.Logic.Basic

/-! # Results under a condition

A computation that may fail gives a known result exactly under some condition. The conditions of its
steps are all that it takes to know its own.
-/

namespace Rollup

/-- `x` is the result `a` under the condition `p`, and otherwise there is none. -/
structure GivenIf {α : Type} (p : Prop) (x : Option α) (a : α) : Prop where
  eq_some : p → x = some a
  eq_none : ¬ p → x = none

section

variable {α β : Type} {p q : Prop} {x : Option α} {a : α} {b : β}

theorem givenIf_ite (p : Prop) [Decidable p] (a : α) :
    GivenIf p (if p then some a else none) a :=
  ⟨fun h => if_pos h, fun h => if_neg h⟩

theorem givenIf_some (a : α) : GivenIf True (some a) a :=
  ⟨fun _ => rfl, fun h => absurd trivial h⟩

theorem GivenIf.congr (h : GivenIf p x a) (hpq : p ↔ q) : GivenIf q x a :=
  ⟨fun hq => h.eq_some (hpq.mpr hq), fun hq => h.eq_none fun hp => hq (hpq.mp hp)⟩

theorem GivenIf.eq_some_iff (h : GivenIf p x a) {a' : α} : x = some a' ↔ p ∧ a' = a := by
  by_cases hp : p
  · simp [h.eq_some hp, hp, eq_comm]
  · simp [h.eq_none hp, hp]

theorem GivenIf.isSome_iff (h : GivenIf p x a) : x.isSome ↔ p := by
  by_cases hp : p
  · simp [h.eq_some hp, hp]
  · simp [h.eq_none hp, hp]

theorem GivenIf.bind (hx : GivenIf p x a) {f : α → Option β} (hf : p → GivenIf q (f a) b) :
    GivenIf (p ∧ q) (x >>= f) b := by
  by_cases hp : p
  · rw [hx.eq_some hp]
    exact (hf hp).congr (and_iff_right hp).symm
  · rw [hx.eq_none hp]
    exact ⟨fun h => absurd h.1 hp, fun _ => rfl⟩

theorem GivenIf.map (hx : GivenIf p x a) (f : α → β) : GivenIf p (x.map f) (f a) := by
  by_cases hp : p
  · exact ⟨fun _ => by rw [hx.eq_some hp]; rfl, fun h => absurd hp h⟩
  · exact ⟨fun h => absurd h hp, fun _ => by rw [hx.eq_none hp]; rfl⟩

theorem GivenIf.bind_pure (hx : GivenIf p x a) (f : α → β) :
    GivenIf p (x >>= fun a => pure (f a)) (f a) := by
  have hmap : (x >>= fun a => pure (f a)) = x.map f := by cases x <;> rfl
  rw [hmap]
  exact hx.map f

theorem givenIf_mapM {xs : List α} {ok : α → Prop} {f : α → Option β} {g : α → β}
    (h : ∀ x ∈ xs, GivenIf (ok x) (f x) (g x)) :
    GivenIf (∀ x ∈ xs, ok x) (xs.mapM f) (xs.map g) := by
  induction xs with
  | nil => exact (givenIf_some []).congr (by simp)
  | cons x xs ih =>
    obtain ⟨hx, hxs⟩ := List.forall_mem_cons.mp h
    rw [List.mapM_cons]
    exact (hx.bind fun _ => (ih hxs).bind_pure (g x :: ·)).congr (by simp)

/-- There is no result only if `fails`, and every result has the property. -/
structure HoldsOr (fails : Prop) (holds : α → Prop) (x : Option α) : Prop where
  of_some : ∀ a, x = some a → holds a
  of_none : x = none → fails

variable {holds : α → Prop} {holds' : β → Prop}

theorem HoldsOr.pure (h : holds a) : HoldsOr p holds (pure a) :=
  ⟨fun _ ha => Option.some.inj ha ▸ h, fun hnone => nomatch hnone⟩

theorem HoldsOr.bind (hx : HoldsOr p holds x) {f : α → Option β}
    (hf : ∀ a, holds a → HoldsOr p holds' (f a)) : HoldsOr p holds' (x >>= f) := by
  cases hx' : x with
  | none => exact ⟨fun _ h => (nomatch h), fun _ => hx.of_none hx'⟩
  | some a => exact hf a (hx.of_some a hx')

theorem HoldsOr.map (hx : HoldsOr p holds x) {f : α → β} (hf : ∀ a, holds a → holds' (f a)) :
    HoldsOr p holds' (f <$> x) := by
  cases hx' : x with
  | none => exact ⟨fun _ h => (nomatch h), fun _ => hx.of_none hx'⟩
  | some a => exact .pure (hf a (hx.of_some a hx'))

end

end Rollup
