import Rollup.Proofs.Double.Order
import Rollup.Proofs.Sort.Keys
import Rollup.Sort.Directive

/-! # The order of rows

Sort keys are compared as their places in a linear order, so that comparing rows by any list of
directives is a total preorder. It is the lexicographic one, in which the first directive that tells
two rows apart decides.
-/

namespace Rollup

open Number (Rank rank)

/-! ## The place of a key -/

theorem Text.compare_eq (s t : Text) :
    s.compare t = Ord.compare (s.map Char.toNat) (t.map Char.toNat) := by
  induction s generalizing t with
  | nil => cases t <;> rfl
  | cons c s ih =>
    cases t with
    | nil => rfl
    | cons d t => rw [Text.compare, ih, List.map_cons, List.map_cons, List.compare_cons_cons]

abbrev SortValue.Place := ℤ ×ₗ Rank ×ₗ List ℕ

/-- Numbers stand before texts. -/
def SortValue.place : SortValue → SortValue.Place
  | number x => toLex (0, toLex (rank x, []))
  | text t => toLex (1, toLex (0, t.map Char.toNat))

/-- Anything but NaN. -/
def SortValue.Comparable : SortValue → Prop
  | number x => x.isNaN = false
  | text _ => True

theorem SortKey.comparable_extract (k : SortKey) (cell : Text) : (k.extract cell).Comparable := by
  cases h : k.extract cell with
  | text t => trivial
  | number x => exact SortKey.extract_not_isNaN h

theorem SortValue.compare_eq {v w : SortValue} (hv : v.Comparable) (hw : w.Comparable) :
    v.compare w = Ord.compare v.place w.place := by
  cases v with
  | text s =>
    cases w with
    | text t => exact Text.compare_eq s t
    | number y => rfl
  | number x =>
    cases w with
    | text t => rfl
    | number y =>
      rw [SortValue.compare, Number.order?_eq hv hw]
      change _ = (Ord.compare (rank x) (rank y)).then .eq
      simp

theorem SortValue.same_iff {v w : SortValue} (hv : v.Comparable) (hw : w.Comparable) :
    v.same w ↔ v.compare w = .eq := by
  cases v with
  | text s =>
    cases w with
    | text t =>
      rw [SortValue.compare, Text.compare_eq, Std.LawfulEqOrd.compare_eq_iff_eq]
      simp [SortValue.same, List.map_inj_right fun _ _ => Char.toNat_inj.mp]
    | number y => simp [SortValue.same, SortValue.compare]
  | number x =>
    cases w with
    | text t => simp [SortValue.same, SortValue.compare]
    | number y =>
      rw [SortValue.compare, Number.order?_eq hv hw]
      exact (Number.beq_iff_rank_eq hv hw).trans compare_eq_iff_eq.symm

/-! ## Which key stands before which -/

def SortValue.Below : SortValue → SortValue → Prop
  | text s, text t => s < t
  | number x, number y => x < y
  | number _, text _ => True
  | text _, number _ => False

theorem Text.compare_eq_lt_iff (s t : Text) : s.compare t = .lt ↔ s < t := by
  induction s generalizing t with
  | nil => cases t <;> simp [Text.compare]
  | cons c s ih =>
    cases t with
    | nil => simp [Text.compare]
    | cons d t =>
      rw [Text.compare, Ordering.then_eq_lt, ih, Nat.compare_eq_lt, Nat.compare_eq_eq,
        Char.toNat_inj, List.cons_lt_cons_iff]
      rfl

theorem SortValue.compare_eq_lt_iff (v w : SortValue) : v.compare w = .lt ↔ v.Below w := by
  cases v with
  | text s =>
    cases w with
    | text t => exact Text.compare_eq_lt_iff s t
    | number y => simp [SortValue.compare, SortValue.Below]
  | number x =>
    cases w with
    | text t => simp [SortValue.compare, SortValue.Below]
    | number y =>
      rw [SortValue.compare, Number.order?, SortValue.Below]
      split_ifs with h <;> simp [h]

namespace Directive

variable (d : Directive) (ds : List Directive)

/-! ## Rows under one directive -/

def keyOf (row : List Text) : SortValue := d.key.extract (row.getD d.column [])

/-- The row `a` stands before the row `b`, as far as the directive tells. -/
def Below (a b : List Text) : Prop :=
  if d.descending then (d.keyOf b).Below (d.keyOf a) else (d.keyOf a).Below (d.keyOf b)

def rowCompare (a b : List Text) : Ordering := d.compare (d.keyOf a) (d.keyOf b)

theorem comparable_keyOf (row : List Text) : (d.keyOf row).Comparable :=
  d.key.comparable_extract _

theorem compare_keyOf (a b : List Text) :
    (d.keyOf a).compare (d.keyOf b) = Ord.compare (d.keyOf a).place (d.keyOf b).place :=
  SortValue.compare_eq (d.comparable_keyOf a) (d.comparable_keyOf b)

instance transCmp_rowCompare : Std.TransCmp d.rowCompare := by
  have hcmp : d.rowCompare = if d.descending
      then fun a b => compareOn (fun row => (d.keyOf row).place) b a
      else compareOn fun row => (d.keyOf row).place := by
    funext a b
    unfold rowCompare Directive.compare
    split
    · rw [compare_keyOf]
      exact Std.OrientedOrd.eq_swap.symm
    · exact d.compare_keyOf a b
  rw [hcmp]
  split <;> infer_instance

theorem rowCompare_eq_lt_iff (a b : List Text) : d.rowCompare a b = .lt ↔ d.Below a b := by
  unfold rowCompare Directive.compare Below
  split
  · rw [Ordering.swap_eq_lt, compare_keyOf, Std.OrientedOrd.eq_swap, Ordering.swap_eq_gt,
      ← compare_keyOf, SortValue.compare_eq_lt_iff]
  · exact SortValue.compare_eq_lt_iff _ _

theorem rowCompare_eq_eq_iff (a b : List Text) :
    d.rowCompare a b = .eq ↔ (d.keyOf a).same (d.keyOf b) := by
  rw [SortValue.same_iff (d.comparable_keyOf a) (d.comparable_keyOf b)]
  unfold rowCompare Directive.compare
  split
  · exact Ordering.swap_eq_eq
  · rfl

/-! ## Rows under a list of directives -/

def order (a b : List Text) : Ordering := compareKeys ds (keys ds a) (keys ds b)

theorem order_cons : order (d :: ds) = compareLex d.rowCompare (order ds) := rfl

instance transCmp_order : Std.TransCmp (order ds) := by
  induction ds with
  | nil => exact { eq_swap := rfl, isLE_trans := fun _ _ => rfl }
  | cons d ds ih =>
    rw [order_cons]
    infer_instance

/-- The row `a` may stand before the row `b`: the first directive that tells them apart, if there is
one, puts it first. -/
def NotAfter : List Directive → List Text → List Text → Prop
  | [], _, _ => True
  | d :: ds, a, b => d.Below a b ∨ (d.keyOf a).same (d.keyOf b) ∧ NotAfter ds a b

/-- No directive tells the rows apart. -/
def alike (a b : List Text) : Bool := ds.all fun d => (d.keyOf a).same (d.keyOf b)

theorem isLE_order_iff (a b : List Text) : (order ds a b).isLE ↔ NotAfter ds a b := by
  induction ds with
  | nil => simp [order, compareKeys, NotAfter]
  | cons d ds ih =>
    rw [order_cons, compareLex, NotAfter, ← rowCompare_eq_lt_iff, ← rowCompare_eq_eq_iff, ← ih]
    cases d.rowCompare a b <;> simp

theorem order_eq_eq_iff (a b : List Text) : order ds a b = .eq ↔ alike ds a b := by
  induction ds with
  | nil => simp [order, compareKeys, alike]
  | cons d ds ih =>
    rw [order_cons, compareLex, Ordering.then_eq_eq, ih, rowCompare_eq_eq_iff]
    simp [alike]

/-! ## The leading directives -/

theorem order_append (ds₁ ds₂ : List Directive) (a b : List Text) :
    order (ds₁ ++ ds₂) a b = (order ds₁ a b).then (order ds₂ a b) := by
  induction ds₁ with
  | nil => rfl
  | cons d ds₁ ih =>
    rw [List.cons_append, order_cons, order_cons, compareLex, compareLex, ih, Ordering.then_assoc]

/-- Rows in order under all directives are in order under the leading ones. -/
theorem isLE_order_take {a b : List Text} (n : ℕ) (h : (order ds a b).isLE) :
    (order (ds.take n) a b).isLE := by
  rw [← List.take_append_drop n ds, order_append] at h
  cases hn : order (ds.take n) a b with
  | lt => rfl
  | eq => rfl
  | gt => simp [hn] at h

theorem sameKeys_eq_alike (a b : List Text) :
    sameKeys (keys ds a) (keys ds b) = alike ds a b := by
  induction ds with
  | nil => rfl
  | cons d ds ih => exact congrArg _ ih

end Directive

end Rollup
