import Mathlib.Data.List.Forall2
import Rollup.Proofs.Grouping.Keys
import Rollup.Proofs.Summary.Blocks
import Rollup.Proofs.Summary.Cells

/-! # Columns that sort alike

A summary looks at its columns in three ways: they name the keys, they give the cells by which groups
are sorted and cut into blocks, and some of them are shown. Two lists of columns that name the same
keys and sort alike give summaries that differ only in what is shown of each group.
-/

namespace Rollup

/-! ## Changing every line -/

def Row.onCells (f : List Text → List Text) : Row → Row
  | separator => separator
  | cells cs => cells (f cs)

/-- The header and every data row are changed in the same way. The separators stay. -/
def Table.onLines (f : List Text → List Text) (t : Table) : Table where
  header := t.header.map f
  rows := t.rows.map (Row.onCells f)

/-- There is a header, and it and every data row have this many cells. -/
def Table.HasWidth (t : Table) (n : ℕ) : Prop :=
  t.header.map List.length = some n ∧ ∀ row ∈ t.dataRows, row.length = n

namespace Summary

section Cut

variable {ρ σ : Type}

theorem map_onCells_cut (f : List Text → List Text) (same : ρ → ρ → Bool) (shown : ρ → List Text)
    (rows : List ρ) :
    (cut same shown rows).map (Row.onCells f) = cut same (fun a => f (shown a)) rows := by
  fun_induction cut same shown rows with
  | case1 => rfl
  | case2 => rfl
  | case3 a b rest h ih => rw [cut, if_pos h, List.map_cons, ih]; rfl
  | case4 a b rest h ih => rw [cut, if_neg h, List.map_cons, List.map_cons, ih]; rfl

theorem cut_map (same : σ → σ → Bool) (shown : σ → List Text) (row : ρ → σ) (rows : List ρ) :
    cut same shown (rows.map row) =
      cut (fun a b => same (row a) (row b)) (fun a => shown (row a)) rows := by
  induction rows with
  | nil => rfl
  | cons a rows ih =>
    cases rows with
    | nil => rfl
    | cons b rows =>
      rw [List.map_cons, List.map_cons, cut, cut, ← List.map_cons, ih]

end Cut

/-! ## A summary group by group -/

/-- The columns that are shown. -/
def shown (cs : List OutputColumn) : List OutputColumn := cs.filter fun c => !c.spec.invisible

theorem visible_map {α : Type} (cs : List OutputColumn) (item : OutputColumn → α) :
    visible cs (cs.map item) = (shown cs).map item := by
  unfold visible shown
  induction cs with
  | nil => rfl
  | cons c cs ih =>
    rw [List.map_cons, List.zip_cons_cons]
    cases hc : c.spec.invisible <;> simp [hc, ih]

theorem mem_keyPositions {cs : List OutputColumn} {p : ℕ} :
    p ∈ keyPositions cs ↔ p ∈ cs.filterMap OutputColumn.keyPosition? := by
  -- whatever was seen before is kept, so that the induction is over any list of seen positions
  have hfold : ∀ (ps seen : List ℕ),
      p ∈ ps.foldl (fun seen p => if p ∈ seen then seen else seen ++ [p]) seen ↔
        p ∈ seen ∨ p ∈ ps := by
    intro ps
    induction ps with
    | nil => simp
    | cons q ps ih =>
      intro seen
      rw [List.foldl_cons, ih, List.mem_cons]
      split
      case isTrue hq => exact ⟨Or.imp_right .inr, fun h => by grind⟩
      case isFalse => rw [List.mem_append, List.mem_singleton, or_assoc]
  unfold keyPositions
  rw [hfold]
  simp

/-- The cells of a group with these rows, those that are not shown too. -/
def rowOf (defaults : FormatDefaults) (cs : List OutputColumn) (members : List BodyRow) :
    List Text :=
  cs.map (cellOf defaults members)

section Table

variable (t : Table) (cs : List OutputColumn) (filter : Option RowFilter) (depth : ℕ)
  (defaults : FormatDefaults)

/-- The rows of every group, with the groups as they are sorted. -/
def sortedMembers : List (List BodyRow) :=
  ((t.groups (keyPositions cs) filter).map Group.rows).mergeSort fun a b =>
    (Directive.order (directives cs) (rowOf defaults cs a) (rowOf defaults cs b)).isLE

theorem sortedRows_eq : sortedRows t cs filter defaults =
    (sortedMembers t cs filter defaults).map (rowOf defaults cs) := by
  have hcells : (t.groups (keyPositions cs) filter).map (·.cells defaults cs) =
      ((t.groups (keyPositions cs) filter).map Group.rows).map (rowOf defaults cs) := by
    rw [List.map_map]
    exact List.map_congr_left fun g _ => g.cells_eq_map defaults cs
  rw [sortedRows, Directive.sortRows_eq_mergeSort, hcells, sortedMembers, List.map_mergeSort]
  exact fun _ _ _ _ => rfl

theorem perm_sortedMembers : (sortedMembers t cs filter defaults).Perm
    ((t.groups (keyPositions cs) filter).map Group.rows) :=
  List.mergeSort_perm _ _

theorem table_eq : table t cs filter depth defaults =
    { header := some ((shown cs).map OutputColumn.header)
      rows := cut
        (fun a b => Directive.alike ((directives cs).take depth) (rowOf defaults cs a)
          (rowOf defaults cs b))
        (rowOf defaults (shown cs)) (sortedMembers t cs filter defaults) } := by
  have hheader : (table t cs filter depth defaults).header =
      some ((shown cs).map OutputColumn.header) := congrArg some (visible_map cs _)
  have hrows := rows_table t cs filter depth defaults
  rw [sortedRows_eq, cut_map] at hrows
  simp only [rowOf, visible_map] at hrows
  rw [← hheader]
  exact congrArg (Table.mk _) hrows

theorem dataRows_table : (table t cs filter depth defaults).dataRows =
    (sortedMembers t cs filter defaults).map (rowOf defaults (shown cs)) := by
  rw [table_eq, Table.dataRows, filterMap_cells_cut]

theorem hasWidth_table : (table t cs filter depth defaults).HasWidth (shown cs).length := by
  constructor
  · rw [table_eq]
    exact congrArg some (List.length_map _)
  · intro row hrow
    rw [dataRows_table] at hrow
    obtain ⟨members, -, rfl⟩ := List.mem_map.mp hrow
    exact List.length_map _

end Table

/-! ## Two lists of columns -/

/-- The columns name the same keys, and their directives compare groups in the same way. -/
structure SortsAlike (defaults : FormatDefaults) (cs cs' : List OutputColumn) : Prop where
  keys : ∀ p, p ∈ keyPositions cs ↔ p ∈ keyPositions cs'
  directives : List.Forall₂
    (fun d d' => ∀ a b, d.rowCompare (rowOf defaults cs a) (rowOf defaults cs b) =
      d'.rowCompare (rowOf defaults cs' a) (rowOf defaults cs' b))
    (directives cs) (directives cs')

section SortsAlike

variable {defaults : FormatDefaults} {cs cs' : List OutputColumn}

theorem order_eq_of_forall₂ {ds ds' : List Directive} {row row' : List BodyRow → List Text}
    (h : List.Forall₂
      (fun d d' => ∀ a b, d.rowCompare (row a) (row b) = d'.rowCompare (row' a) (row' b)) ds ds')
    (a b : List BodyRow) :
    Directive.order ds (row a) (row b) = Directive.order ds' (row' a) (row' b) := by
  induction h with
  | nil => rfl
  | cons hd _ ih =>
    rw [Directive.order_cons, Directive.order_cons, compareLex, compareLex, hd a b, ih]

theorem SortsAlike.sortedMembers_eq (h : SortsAlike defaults cs cs') (t : Table)
    (filter : Option RowFilter) :
    sortedMembers t cs filter defaults = sortedMembers t cs' filter defaults := by
  unfold sortedMembers
  rw [t.map_rows_groups h.keys]
  exact congrArg _ (funext₂ fun a b => congrArg _ (order_eq_of_forall₂ h.directives a b))

theorem SortsAlike.alike_eq (h : SortsAlike defaults cs cs') (depth : ℕ) (a b : List BodyRow) :
    Directive.alike ((Summary.directives cs).take depth) (rowOf defaults cs a)
        (rowOf defaults cs b) =
      Directive.alike ((Summary.directives cs').take depth) (rowOf defaults cs' a)
        (rowOf defaults cs' b) := by
  rw [Bool.eq_iff_iff, ← Directive.order_eq_eq_iff, ← Directive.order_eq_eq_iff,
    order_eq_of_forall₂ (List.forall₂_take depth h.directives)]

/-- What is shown of every group is changed, and nothing else. -/
theorem SortsAlike.table_eq (h : SortsAlike defaults cs cs') {f : List Text → List Text}
    (hshown : ∀ item : OutputColumn → Text, (shown cs').map item = f ((shown cs).map item))
    (t : Table) (filter : Option RowFilter) (depth : ℕ) :
    table t cs' filter depth defaults = (table t cs filter depth defaults).onLines f := by
  have hrow : rowOf defaults (shown cs') = fun a => f (rowOf defaults (shown cs) a) :=
    funext fun a => hshown (cellOf defaults a)
  have hsame := funext₂ fun a b => h.alike_eq depth a b
  rw [Summary.table_eq, Summary.table_eq, Table.onLines, map_onCells_cut, ← hrow, hsame,
    h.sortedMembers_eq, hshown]
  rfl

end SortsAlike

end Summary

end Rollup
