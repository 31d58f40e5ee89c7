import Mathlib.Data.List.Perm.Basic
import Rollup.Fault

/-! # Runs that agree

Two runs agree when both fail, or when both end and their results are related. Runs that agree step
by step agree as a whole, and reading the same items in another order fails for both or gives the
same results in another order.
-/

namespace Rollup

inductive Agree {ε α β : Type} (related : α → β → Prop) : Except ε α → Except ε β → Prop
  | ok {a : α} {b : β} (h : related a b) : Agree related (.ok a) (.ok b)
  | error {e e' : ε} : Agree related (.error e) (.error e')

section Agree

variable {ε α β γ δ : Type} {related : α → β → Prop} {related' : γ → δ → Prop}
  {x : Except ε α} {y : Except ε β}

theorem Agree.bind {f : α → Except ε γ} {g : β → Except ε δ} (h : Agree related x y)
    (hstep : ∀ a b, related a b → Agree related' (f a) (g b)) :
    Agree related' (x >>= f) (y >>= g) := by
  cases h with
  | ok hab => exact hstep _ _ hab
  | error => exact .error

theorem Agree.map {f : α → γ} {g : β → δ} (h : Agree related x y)
    (hstep : ∀ a b, related a b → related' (f a) (g b)) : Agree related' (x.map f) (y.map g) := by
  cases h with
  | ok hab => exact .ok (hstep _ _ hab)
  | error => exact .error

theorem Agree.mono {related'' : α → β → Prop} (h : Agree related x y)
    (himp : ∀ a b, related a b → related'' a b) : Agree related'' x y := by
  cases h with
  | ok hab => exact .ok (himp _ _ hab)
  | error => exact .error

/-- Related results are those of the two runs. -/
theorem Agree.results (h : Agree related x y) :
    Agree (fun a b => related a b ∧ x = .ok a ∧ y = .ok b) x y := by
  cases h with
  | ok hab => exact .ok ⟨hab, rfl, rfl⟩
  | error => exact .error

theorem Agree.exists_right {a : α} (h : Agree related x y) (hx : x = .ok a) :
    ∃ b, y = .ok b ∧ related a b := by
  cases h with
  | ok hab =>
    cases hx
    exact ⟨_, rfl, hab⟩
  | error => cases hx

theorem Agree.exists_left {b : β} (h : Agree related x y) (hy : y = .ok b) :
    ∃ a, x = .ok a ∧ related a b := by
  cases h with
  | ok hab =>
    cases hy
    exact ⟨_, rfl, hab⟩
  | error => cases hy

theorem agree_of_eq_ok (h : ∀ a, x = .ok a → ∃ b, y = .ok b ∧ related a b)
    (h' : ∀ b, y = .ok b → ∃ a, x = .ok a) : Agree related x y := by
  cases hx : x with
  | ok a =>
    obtain ⟨b, hb, hab⟩ := h a hx
    rw [hb]
    exact .ok hab
  | error e =>
    cases hy : y with
    | ok b =>
      obtain ⟨a, ha⟩ := h' b hy
      rw [hx] at ha
      cases ha
    | error e' => exact .error

theorem agree_self (x : Except ε α) : Agree Eq x x := by
  cases x with
  | ok a => exact .ok rfl
  | error e => exact .error

theorem agree_of_toOption_eq {x y : Except ε α} (h : x.toOption = y.toOption) :
    Agree Eq x y := by
  cases x <;> cases y <;> cases h
  · exact .error
  · exact .ok rfl

end Agree

/-! ## Lists -/

section Lists

variable {ε α β : Type} {f : α → Except ε β} {items items' : List α}

theorem mapM_eq_ok_iff {results : List β} :
    items.mapM f = .ok results ↔ List.Forall₂ (fun a b => f a = .ok b) items results := by
  induction items generalizing results with
  | nil =>
    rw [List.mapM_nil, List.forall₂_nil_left_iff]
    exact ⟨fun h => (Except.ok.inj h).symm, fun h => congrArg Except.ok h.symm⟩
  | cons a items ih =>
    rw [List.mapM_cons, List.forall₂_cons_left_iff]
    constructor
    · intro h
      obtain ⟨b, hb, h⟩ := exists_of_bind_eq_ok h
      obtain ⟨bs, hbs, h⟩ := exists_of_bind_eq_ok h
      exact ⟨b, bs, hb, ih.mp hbs, (Except.ok.inj h).symm⟩
    · rintro ⟨b, bs, hb, hbs, rfl⟩
      rw [hb, ih.mpr hbs]
      rfl

theorem exists_of_mem_mapM {results : List β} (h : items.mapM f = .ok results) {b : β}
    (hb : b ∈ results) : ∃ a ∈ items, f a = .ok b := by
  rw [mapM_eq_ok_iff] at h
  induction h with
  | nil => cases hb
  | cons hstep _ ih =>
    rcases List.mem_cons.mp hb with rfl | hb
    · exact ⟨_, List.mem_cons_self, hstep⟩
    · obtain ⟨a, ha, hstep⟩ := ih hb
      exact ⟨a, List.mem_cons_of_mem _ ha, hstep⟩

/-- Reading items in two steps, one after the other, is reading them in both at once. -/
theorem mapM_bind_mapM_eq_ok_iff {γ : Type} {g : β → Except ε γ} {results : List γ} :
    (items.mapM f >>= List.mapM g) = .ok results ↔
      items.mapM (fun a => f a >>= g) = .ok results := by
  have hsteps : (items.mapM f >>= List.mapM g) = .ok results ↔
      ∃ middle, items.mapM f = .ok middle ∧ middle.mapM g = .ok results := by
    refine ⟨exists_of_bind_eq_ok, ?_⟩
    rintro ⟨middle, hmiddle, hresults⟩
    rw [hmiddle]
    exact hresults
  rw [hsteps]
  clear hsteps
  simp only [mapM_eq_ok_iff]
  constructor
  · rintro ⟨middle, hmiddle, hresults⟩
    induction hmiddle generalizing results with
    | nil =>
      cases hresults
      exact .nil
    | cons hb _ ih =>
      cases hresults with
      | cons hc hcs => exact .cons (by rw [hb]; exact hc) (ih hcs)
  · intro h
    induction h with
    | nil => exact ⟨[], .nil, .nil⟩
    | cons hc _ ih =>
      obtain ⟨middle, hmiddle, hresults⟩ := ih
      obtain ⟨b, hb, hc⟩ := exists_of_bind_eq_ok hc
      exact ⟨b :: middle, .cons hb hmiddle, .cons hc hresults⟩

theorem exists_mapM_of_perm {results : List β} (h : items'.Perm items)
    (hok : items.mapM f = .ok results) :
    ∃ results', items'.mapM f = .ok results' ∧ results'.Perm results := by
  obtain ⟨results', hresults', hperm⟩ := List.perm_comp_forall₂ h (mapM_eq_ok_iff.mp hok)
  exact ⟨results', mapM_eq_ok_iff.mpr hresults', hperm⟩

theorem agree_mapM_of_perm (h : items'.Perm items) :
    Agree (fun results results' => results'.Perm results) (items.mapM f) (items'.mapM f) := by
  refine agree_of_eq_ok (fun _ hok => exists_mapM_of_perm h hok) fun _ hok' => ?_
  obtain ⟨results, hresults, -⟩ := exists_mapM_of_perm h.symm hok'
  exact ⟨results, hresults⟩

/-- Two lists that differ in one item. -/
theorem agree_mapM_append_cons {related : β → β → Prop} {a a' : α} {before after : List α}
    (h : Agree related (f a) (f a')) :
    Agree (fun results results' => ∃ first b b' last, before.mapM f = .ok first ∧
        (f a = .ok b ∧ related b b') ∧ results = first ++ b :: last ∧ results' = first ++ b' :: last)
      ((before ++ a :: after).mapM f) ((before ++ a' :: after).mapM f) := by
  have hrest : Agree (fun rest rest' => ∃ b b' last, (f a = .ok b ∧ related b b') ∧
      rest = b :: last ∧ rest' = b' :: last) ((a :: after).mapM f) ((a' :: after).mapM f) := by
    rw [List.mapM_cons, List.mapM_cons]
    refine h.results.bind fun b b' hb => (agree_self (after.mapM f)).bind ?_
    rintro last _ rfl
    exact .ok ⟨b, b', last, ⟨hb.2.1, hb.1⟩, rfl, rfl⟩
  rw [List.mapM_append, List.mapM_append]
  refine (agree_self (before.mapM f)).results.bind ?_
  rintro first _ ⟨rfl, hfirst, -⟩
  refine hrest.bind ?_
  rintro _ _ ⟨b, b', last, hb, rfl, rfl⟩
  exact .ok ⟨first, b, b', last, hfirst, hb, rfl, rfl⟩

end Lists

/-! ## Picking items -/

/-- The items at the given places, in the order of the places. -/
def pick {α : Type} (order : List ℕ) (items : List α) : List α := order.filterMap (items[·]?)

theorem map_pick {α β : Type} (f : α → β) (order : List ℕ) (items : List α) :
    (pick order items).map f = pick order (items.map f) := by
  rw [pick, pick, List.map_filterMap]
  exact congrArg (List.filterMap · order) (funext fun i => List.getElem?_map.symm)

/-- Items in another order are picked by a permutation of the places. -/
theorem exists_pick_of_perm {α : Type} {items items' : List α} (h : items'.Perm items) :
    ∃ order : List ℕ, order.Perm (List.range items.length) ∧ items' = pick order items := by
  have hplaces : List.Forall₂ (fun a i => items[i]? = some a) items (List.range items.length) := by
    refine List.forall₂_iff_get.mpr ⟨by simp, fun i hi _ => ?_⟩
    simp [hi]
  obtain ⟨order, hfound, horder⟩ := List.perm_comp_forall₂ h hplaces
  refine ⟨order, horder, ?_⟩
  clear horder h hplaces
  unfold pick
  induction hfound with
  | nil => rfl
  | cons hi _ ih => rw [List.filterMap_cons_some hi, ← ih]

end Rollup
