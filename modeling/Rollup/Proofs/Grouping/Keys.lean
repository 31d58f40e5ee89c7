import Mathlib.Data.List.Dedup
import Rollup.Proofs.Grouping

/-! # The keys of groups

There is one group for every key that occurs, and it holds the rows with that key. Which rows stand
together depends on the set of the key positions alone, and not on their order or on repetitions.
-/

namespace Rollup

/-! ## One group for every key -/

section Counting

variable {keys : List ℕ} {rows : List BodyRow} {gs : List Group}

theorem Grouped.mem_keys_iff (h : Grouped keys rows gs) {key : List Text} :
    key ∈ gs.map Group.key ↔ key ∈ rows.map (BodyRow.key keys) := by
  simp only [List.mem_map]
  constructor
  · intro hkey
    exact h.exists_row (List.mem_map.mpr hkey)
  · rintro ⟨r, hr, rfl⟩
    obtain ⟨g, hg, -, hkey⟩ := h.exists_group hr
    exact ⟨g, hg, hkey⟩

theorem Grouped.perm_dedup (h : Grouped keys rows gs) :
    (gs.map Group.key).Perm (rows.map (BodyRow.key keys)).dedup := by
  refine (List.perm_ext_iff_of_nodup h.distinct (List.nodup_dedup _)).mpr fun key => ?_
  rw [h.mem_keys_iff, List.mem_dedup]

theorem Grouped.length_rows (h : Grouped keys rows gs) {g : Group} (hg : g ∈ gs) :
    g.rows.length = (rows.map (BodyRow.key keys)).count g.key := by
  rw [h.members g hg, ← List.countP_eq_length_filter, List.count, List.countP_map]
  exact List.countP_congr fun r _ => by simp

end Counting

theorem Table.grouped_groups {keys : List ℕ} (hkeys : keys ≠ []) (t : Table)
    (filter : Option RowFilter) :
    Grouped keys (accepted filter t.rowsInPlace) (t.groups keys filter) := by
  rw [t.groups_eq]
  dsimp only
  rw [if_neg fun h => hkeys h.1]
  exact (Grouping.holds_addAll_start keys filter t.rowsInPlace).grouped

/-- Without keys all accepted rows stand in one group, even if there are none. -/
theorem Table.length_groups_nil (t : Table) (filter : Option RowFilter) :
    (t.groups [] filter).length = 1 := by
  have h := (Grouping.holds_addAll_start [] filter t.rowsInPlace).grouped
  rw [t.groups_eq]
  dsimp only
  split
  case isTrue => rfl
  case isFalse hgs =>
    have hkey : ∀ g : Group, g.key ∈ (accepted filter t.rowsInPlace).map (BodyRow.key []) →
        g.key = [] := by
      intro g hg
      obtain ⟨r, -, hr⟩ := List.mem_map.mp hg
      exact hr.symm
    generalize ((Grouping.start [] filter).addAll t.rowsInPlace).groups = gs at h hgs ⊢
    match gs, h, hgs with
    | [], _, hgs => exact absurd ⟨rfl, rfl⟩ hgs
    | [_], _, _ => rfl
    | g :: g' :: gs, h, _ =>
      have hg := hkey g (h.mem_keys_iff.mp (by simp))
      have hg' := hkey g' (h.mem_keys_iff.mp (by simp))
      have hdistinct := h.distinct
      simp [hg, hg'] at hdistinct

/-! ## The same positions in another order -/

section Positions

variable {keys keys' : List ℕ}

theorem BodyRow.key_eq_key_iff (h : ∀ p, p ∈ keys ↔ p ∈ keys') (r s : BodyRow) :
    r.key keys = s.key keys ↔ r.key keys' = s.key keys' := by
  simp only [BodyRow.key, List.map_inj_left, h]

/-- Two groups hold the same rows, and take in the same ones. -/
structure Group.Matches (keys keys' : List ℕ) (g g' : Group) : Prop where
  rows_eq : g.rows = g'.rows
  key_iff : ∀ r : BodyRow, g.key = r.key keys ↔ g'.key = r.key keys'

theorem Group.Matches.insert (h : ∀ p, p ∈ keys ↔ p ∈ keys') (r : BodyRow) {gs gs' : List Group}
    (hgs : List.Forall₂ (Group.Matches keys keys') gs gs') :
    List.Forall₂ (Group.Matches keys keys') (Group.insert (r.key keys) r gs)
      (Group.insert (r.key keys') r gs') := by
  induction hgs with
  | nil => exact .cons ⟨rfl, fun s => BodyRow.key_eq_key_iff h r s⟩ .nil
  | @cons g g' gs gs' hg hgs ih =>
    unfold Group.insert
    by_cases hkey : g.key = r.key keys
    · rw [if_pos hkey, if_pos ((hg.key_iff r).mp hkey)]
      exact .cons ⟨congrArg (· ++ [r]) hg.rows_eq, hg.key_iff⟩ hgs
    · rw [if_neg hkey, if_neg fun he => hkey ((hg.key_iff r).mpr he)]
      exact .cons hg ih

theorem Grouping.matches_addAll (h : ∀ p, p ∈ keys ↔ p ∈ keys') (filter : Option RowFilter)
    (rows : List BodyRow) {gs gs' : List Group}
    (hgs : List.Forall₂ (Group.Matches keys keys') gs gs') :
    List.Forall₂ (Group.Matches keys keys') (Grouping.addAll ⟨keys, filter, gs⟩ rows).groups
      (Grouping.addAll ⟨keys', filter, gs'⟩ rows).groups := by
  induction rows generalizing gs gs' with
  | nil => exact hgs
  | cons r rows ih =>
    simp only [Grouping.addAll, List.foldl_cons, Grouping.add] at ih ⊢
    split
    case isTrue => exact ih (Group.Matches.insert h r hgs)
    case isFalse => exact ih hgs

theorem Table.matches_groups (h : ∀ p, p ∈ keys ↔ p ∈ keys') (t : Table)
    (filter : Option RowFilter) :
    List.Forall₂ (Group.Matches keys keys') (t.groups keys filter) (t.groups keys' filter) := by
  have hgs := Grouping.matches_addAll h filter t.rowsInPlace .nil
  have hnil : keys = [] ↔ keys' = [] := by simp only [List.eq_nil_iff_forall_not_mem, h]
  rw [t.groups_eq, t.groups_eq]
  dsimp only [Grouping.start]
  generalize (Grouping.addAll ⟨keys, filter, []⟩ t.rowsInPlace).groups = gs at hgs ⊢
  generalize (Grouping.addAll ⟨keys', filter, []⟩ t.rowsInPlace).groups = gs' at hgs ⊢
  cases hgs with
  | cons hg hgs =>
    rw [if_neg (by simp), if_neg (by simp)]
    exact .cons hg hgs
  | nil =>
    by_cases hkeys : keys = []
    · have hkeys' := hnil.mp hkeys
      subst hkeys hkeys'
      exact .cons ⟨rfl, fun _ => Iff.rfl⟩ .nil
    · rw [if_neg fun he => hkeys he.1, if_neg fun he => hkeys (hnil.mpr he.1)]
      exact .nil

theorem Table.map_rows_groups (h : ∀ p, p ∈ keys ↔ p ∈ keys') (t : Table)
    (filter : Option RowFilter) :
    (t.groups keys filter).map Group.rows = (t.groups keys' filter).map Group.rows := by
  refine List.forall₂_eq_eq_eq ▸ List.forall₂_map_left_iff.mpr (List.forall₂_map_right_iff.mpr ?_)
  exact (t.matches_groups h filter).imp fun _ _ hg => hg.rows_eq

end Positions

end Rollup
