import Rollup.Proofs.Formula.Resolving

/-! # Names and positions of a formula

Resolving changes nothing in a tree but its names, and fails with the leftmost name that is no
column of the table. The names of a tree are those of its text, in the same order.
-/

namespace Rollup

/-! ## Leaves -/

namespace Expr

mutual

/-- The numbers, names and columns of a tree, from left to right. -/
def leaves : Expr → List Expr
  | number n => [number n]
  | name t quoted => [name t quoted]
  | column p => [column p]
  | neg e => e.leaves
  | binary _ lhs rhs => lhs.leaves ++ rhs.leaves
  | call _ args => leavesOfAll args

def leavesOfAll : List Expr → List Expr
  | [] => []
  | e :: es => e.leaves ++ leavesOfAll es

end

def asName? : Expr → Option (Text × Bool)
  | name t quoted => some (t, quoted)
  | _ => none

/-- The names of a tree, from left to right. -/
def names (e : Expr) : List (Text × Bool) := e.leaves.filterMap asName?

theorem asName?_eq_some_iff {e : Expr} {t : Text} {quoted : Bool} :
    e.asName? = some (t, quoted) ↔ e = name t quoted := by
  cases e <;> simp [asName?]

theorem asColumn?_eq_some_iff {e : Expr} {p : ℕ} : e.asColumn? = some p ↔ e = column p := by
  cases e <;> simp [asColumn?]

mutual

theorem columns_eq : ∀ e : Expr, e.columns = e.leaves.filterMap asColumn?
  | number _ => rfl
  | name _ _ => rfl
  | column _ => rfl
  | neg e => columns_eq e
  | binary _ lhs rhs => by
    rw [columns, leaves, List.filterMap_append, columns_eq lhs, columns_eq rhs]
  | call _ args => columnsOfAll_eq args

theorem columnsOfAll_eq : ∀ es : List Expr,
    columnsOfAll es = (leavesOfAll es).filterMap asColumn?
  | [] => rfl
  | e :: es => by
    rw [columnsOfAll, leavesOfAll, List.filterMap_append, columns_eq e, columnsOfAll_eq es]

end

theorem names_binary (op : Operator) (lhs rhs : Expr) :
    (binary op lhs rhs).names = lhs.names ++ rhs.names := List.filterMap_append

theorem mem_columns_iff {e : Expr} {p : ℕ} : p ∈ e.columns ↔ column p ∈ e.leaves := by
  simp [columns_eq, asColumn?_eq_some_iff]

theorem mem_names_iff {e : Expr} {t : Text} {quoted : Bool} :
    (t, quoted) ∈ e.names ↔ name t quoted ∈ e.leaves := by
  simp [names, asName?_eq_some_iff]

/-! ## Positions -/

theorem mem_insertPosition {p q : ℕ} {ps : List ℕ} :
    p ∈ insertPosition q ps ↔ p = q ∨ p ∈ ps := by
  fun_induction insertPosition q ps with
  | case1 => simp
  | case2 => simp
  | case3 => simp
  | case4 r rs _ _ ih =>
    rw [List.mem_cons, ih, List.mem_cons]
    exact or_left_comm

theorem mem_positions {e : Expr} {p : ℕ} : p ∈ e.positions ↔ p ∈ e.columns := by
  unfold positions
  induction e.columns with
  | nil => rfl
  | cons q qs ih => rw [List.foldr_cons, mem_insertPosition, ih, List.mem_cons]

theorem pairwise_insertPosition {q : ℕ} {ps : List ℕ} (h : ps.Pairwise (· < ·)) :
    (insertPosition q ps).Pairwise (· < ·) := by
  fun_induction insertPosition q ps with
  | case1 => exact List.pairwise_singleton _ _
  | case2 r rs hlt =>
    refine .cons (fun p hp => ?_) h
    rcases List.mem_cons.mp hp with rfl | hp
    · exact hlt
    · exact Nat.lt_trans hlt (List.rel_of_pairwise_cons h hp)
  | case3 => exact h
  | case4 r rs hlt hne ih =>
    obtain ⟨hfirst, hrest⟩ := List.pairwise_cons.mp h
    refine .cons (fun p hp => ?_) (ih hrest)
    rcases mem_insertPosition.mp hp with rfl | hp
    · omega
    · exact hfirst p hp

theorem pairwise_positions (e : Expr) : e.positions.Pairwise (· < ·) := by
  unfold positions
  induction e.columns with
  | nil => exact .nil
  | cons q qs ih => exact pairwise_insertPosition ih

end Expr

/-! ## Names in the order of the text -/

namespace Formula

def reference? : Token → Option (Text × Bool)
  | .name t => some (t, false)
  | .quoted t => some (t, true)
  | .dollar n => some ('$' :: Text.ofNat n, false)
  | _ => none

/-- The names among some tokens. A name before a parenthesis is one of a function. -/
def references : List Token → List (Text × Bool)
  | [] => []
  | .name _ :: .lparen :: l => references l
  | t :: l => (reference? t).toList ++ references l

theorem references_cons {t : Token} {l : List Token}
    (h : ∀ u rest, t = .name u → l = .lparen :: rest → False) :
    references (t :: l) = (reference? t).toList ++ references l := by
  rw [references]
  exact h

theorem references_skip {t : Token} {l : List Token} (h : reference? t = none) :
    references (t :: l) = references l := by
  rw [references_cons, h, Option.toList_none, List.nil_append]
  rintro u rest rfl
  cases h

theorem references_append {l r : List Token} (h : r.head? ≠ some .lparen) :
    references (l ++ r) = references l ++ references r := by
  fun_induction references l with
  | case1 => rfl
  | case2 u l ih => exact ih
  | case3 t l hcall ih =>
    rw [List.cons_append, references_cons, ih, List.append_assoc]
    rintro u rest ht hrest
    cases l with
    | nil =>
      rw [List.nil_append] at hrest
      exact h (by rw [hrest, List.head?_cons])
    | cons v l => exact hcall u l ht (by rw [(List.cons.inj hrest).1])

theorem references_append_cons {l r : List Token} {t : Token} (h : reference? t = none)
    (hparen : t ≠ .lparen) : references (l ++ t :: r) = references l ++ references r := by
  rw [references_append (by simpa using hparen), references_skip h]

theorem reference?_of_sumOperator {t : Token} {op : Operator} (h : sumOperator? t = some op) :
    reference? t = none ∧ t ≠ .lparen := by
  cases t <;> simp_all [sumOperator?, reference?]

theorem reference?_of_productOperator {t : Token} {op : Operator}
    (h : productOperator? t = some op) : reference? t = none ∧ t ≠ .lparen := by
  cases t <;> simp_all [productOperator?, reference?]

theorem names_negated (e : Expr) : (negated e).names = e.names := by
  cases e <;> rfl

mutual

theorem IsExpr.names_eq {l : List Token} {e : Expr} : IsExpr l e → e.names = references l
  | .term h => h.names_eq
  | .sum hl ht hr => by
    obtain ⟨hnone, hparen⟩ := reference?_of_sumOperator ht
    rw [Expr.names_binary, references_append_cons hnone hparen, hl.names_eq, hr.names_eq]

theorem IsTerm.names_eq {l : List Token} {e : Expr} : IsTerm l e → e.names = references l
  | .unary h => h.names_eq
  | .product hl ht hr => by
    obtain ⟨hnone, hparen⟩ := reference?_of_productOperator ht
    rw [Expr.names_binary, references_append_cons hnone hparen, hl.names_eq, hr.names_eq]

theorem IsUnary.names_eq {l : List Token} {e : Expr} : IsUnary l e → e.names = references l
  | .minus h => by rw [names_negated, references_skip rfl, h.names_eq]
  | .plus h => by rw [references_skip rfl, h.names_eq]
  | .power h => h.names_eq

theorem IsPower.names_eq {l : List Token} {e : Expr} : IsPower l e → e.names = references l
  | .primary h => h.names_eq
  | .power hl hr => by
    rw [Expr.names_binary, references_append_cons rfl (by simp), hl.names_eq, hr.names_eq]

theorem IsPrimary.names_eq {l : List Token} {e : Expr} : IsPrimary l e → e.names = references l
  | .number _ | .name _ | .quoted _ | .dollar _ => rfl
  | .call _ h _ => by
    rw [references, references_append_cons rfl (by simp), references, List.append_nil]
    exact h.names_eq
  | .parens h => by
    rw [references_skip rfl, references_append_cons rfl (by simp), references, List.append_nil,
      h.names_eq]

theorem IsArguments.names_eq {l : List Token} {args : List Expr} : IsArguments l args →
    (Expr.leavesOfAll args).filterMap Expr.asName? = references l
  | .none => rfl
  | .some h => h.names_eq

theorem IsArgumentList.names_eq {l : List Token} {args : List Expr} : IsArgumentList l args →
    (Expr.leavesOfAll args).filterMap Expr.asName? = references l
  | .one h => by
    rw [← h.names_eq, Expr.leavesOfAll, Expr.leavesOfAll, List.append_nil, Expr.names]
  | .cons hl hr => by
    rw [Expr.leavesOfAll, List.filterMap_append, references_append_cons rfl (by simp),
      ← hl.names_eq, hr.names_eq, Expr.names]

end

end Formula

/-! ## Resolving -/

def failure? {ε α : Type} : Except ε α → Option ε
  | .error e => some e
  | .ok _ => none

section Failure

variable {ε α β : Type} {x : Except ε α}

theorem failure?_eq_some_iff {e : ε} : failure? x = some e ↔ x = .error e := by
  cases x <;> simp [failure?]

theorem failure?_eq_none_iff : failure? x = none ↔ ∃ a, x = .ok a := by
  cases x <;> simp [failure?]

theorem failure?_map (f : α → β) : failure? (x.map f) = failure? x := by
  cases x <;> rfl

end Failure

namespace Expr

section Resolving

variable {ε : Type} {position : Text → Bool → Except ε ℕ}

/-- A tree with the positions of its names in their place, and the same otherwise. -/
inductive Replaces (position : Text → Bool → Except ε ℕ) : Expr → Expr → Prop
  | number (n : Float) : Replaces position (number n) (number n)
  | name {t : Text} {quoted : Bool} {p : ℕ} (h : position t quoted = .ok p) :
      Replaces position (name t quoted) (column p)
  | column (p : ℕ) : Replaces position (column p) (column p)
  | neg {e r : Expr} (h : Replaces position e r) : Replaces position (neg e) (neg r)
  | binary (op : Operator) {lhs rhs l r : Expr} (hl : Replaces position lhs l)
      (hr : Replaces position rhs r) : Replaces position (binary op lhs rhs) (binary op l r)
  | call (f : Function) {args rs : List Expr} (h : args.Forall₂ (Replaces position) rs) :
      Replaces position (call f args) (call f rs)

mutual

theorem replaces_of_resolve {r : Expr} : ∀ {e : Expr}, resolve position e = .ok r →
    Replaces position e r
  | number n, h => by
    cases h
    exact .number n
  | name t quoted, h => by
    obtain ⟨p, hp, rfl⟩ := exists_of_map_eq_ok h
    exact .name hp
  | column p, h => by
    cases h
    exact .column p
  | neg e, h => by
    obtain ⟨x, hx, rfl⟩ := exists_of_map_eq_ok h
    exact .neg (replaces_of_resolve hx)
  | binary op lhs rhs, h => by
    obtain ⟨l, r, hl, hr, rfl⟩ := exists_of_resolve_binary h
    exact .binary op (replaces_of_resolve hl) (replaces_of_resolve hr)
  | call f args, h => by
    obtain ⟨rs, hrs, rfl⟩ := exists_of_map_eq_ok h
    exact .call f (replaces_of_resolveAll hrs)

theorem replaces_of_resolveAll {rs : List Expr} : ∀ {es : List Expr},
    resolveAll position es = .ok rs → es.Forall₂ (Replaces position) rs
  | [], h => by
    cases h
    exact .nil
  | e :: es, h => by
    obtain ⟨r, rs, hr, hrs, rfl⟩ := exists_of_resolveAll_cons h
    exact .cons (replaces_of_resolve hr) (replaces_of_resolveAll hrs)

end

theorem failure?_resolve_binary (op : Operator) (lhs rhs : Expr) :
    failure? (resolve position (binary op lhs rhs)) =
      (failure? (resolve position lhs)).or (failure? (resolve position rhs)) := by
  rw [resolve]
  split
  case h_1 hl => simp [hl, failure?]
  case h_2 hl => rw [failure?_map, hl, failure?, Option.none_or]

theorem failure?_resolveAll_cons (e : Expr) (es : List Expr) :
    failure? (resolveAll position (e :: es)) =
      (failure? (resolve position e)).or (failure? (resolveAll position es)) := by
  rw [resolveAll]
  split
  case h_1 hr => simp [hr, failure?]
  case h_2 hr => rw [failure?_map, hr, failure?, Option.none_or]

mutual

/-- Resolving fails as the first of the names that fails. -/
theorem failure?_resolve : ∀ e : Expr, failure? (resolve position e) =
    e.names.findSome? fun n => failure? (position n.1 n.2)
  | number _ => rfl
  | name t quoted => by
    rw [resolve, failure?_map, names, leaves]
    simp [asName?]
  | column _ => rfl
  | neg e => by
    rw [resolve, failure?_map, failure?_resolve e]
    rfl
  | binary op lhs rhs => by
    rw [failure?_resolve_binary, names_binary, List.findSome?_append, failure?_resolve lhs,
      failure?_resolve rhs]
  | call f args => by
    rw [resolve, failure?_map, failure?_resolveAll args]
    rfl

theorem failure?_resolveAll : ∀ es : List Expr, failure? (resolveAll position es) =
    ((leavesOfAll es).filterMap asName?).findSome? fun n => failure? (position n.1 n.2)
  | [] => rfl
  | e :: es => by
    rw [failure?_resolveAll_cons, leavesOfAll, List.filterMap_append, List.findSome?_append,
      failure?_resolve e, failure?_resolveAll es, names]

end

theorem exists_resolve_iff {e : Expr} : (∃ r, resolve position e = .ok r) ↔
    ∀ n ∈ e.names, ∃ p, position n.1 n.2 = .ok p := by
  rw [← failure?_eq_none_iff, failure?_resolve, List.findSome?_eq_none_iff]
  simp only [failure?_eq_none_iff]

theorem resolve_eq_error_iff {e : Expr} {err : ε} : resolve position e = .error err ↔
    ∃ before n after, e.names = before ++ n :: after ∧ position n.1 n.2 = .error err ∧
      ∀ m ∈ before, ∃ p, position m.1 m.2 = .ok p := by
  rw [← failure?_eq_some_iff, failure?_resolve, List.findSome?_eq_some_iff]
  simp only [failure?_eq_some_iff, failure?_eq_none_iff]

end Resolving

section Formed

variable {named : Prop} {columns : ℕ → Prop}

mutual

theorem formed_of_mem_leaves {x : Expr} : ∀ {e : Expr}, e.Formed named columns → x ∈ e.leaves →
    x.Formed named columns
  | number _, h, hx | name _ _, h, hx | column _, h, hx => by
    rwa [List.mem_singleton.mp hx]
  | neg e, h, hx => formed_of_mem_leaves h.2 hx
  | binary _ lhs rhs, h, hx => by
    rcases List.mem_append.mp hx with hx | hx
    · exact formed_of_mem_leaves h.1 hx
    · exact formed_of_mem_leaves h.2 hx
  | call _ args, h, hx => formed_of_mem_leavesOfAll h.2 hx

theorem formed_of_mem_leavesOfAll {x : Expr} : ∀ {es : List Expr}, FormedAll named columns es →
    x ∈ leavesOfAll es → x.Formed named columns
  | [], _, hx => absurd hx List.not_mem_nil
  | e :: es, h, hx => by
    rcases List.mem_append.mp hx with hx | hx
    · exact formed_of_mem_leaves h.1 hx
    · exact formed_of_mem_leavesOfAll h.2 hx

end

end Formed

end Expr

/-! ## Formulas of a table -/

namespace Columns

variable {c : Columns} {s : Text} {parsed : Expr}

theorem formula_eq_error {fault : ColumnFault} (hread : Expr.read s = .ok parsed)
    (hresolve : parsed.resolve c.find = .error fault) :
    c.formula s = .error (unknown s parsed fault) := by
  unfold formula
  rw [hread]
  dsimp only
  rw [hresolve]
  rfl

theorem unknown_of_ne_name {fault : ColumnFault}
    (h : ∀ name quoted, parsed ≠ .name name quoted) :
    unknown s parsed fault = .compile s (.column fault) := by
  unfold unknown
  split
  case h_1 name quoted => exact absurd rfl (h name quoted)
  case h_2 => rfl

theorem exists_formula_iff : (∃ e, c.formula s = .ok e) ↔ ∃ parsed, Expr.read s = .ok parsed ∧
    ∀ n ∈ parsed.names, ∃ p, c.find n.1 n.2 = .ok p := by
  simp only [formula_eq_ok_iff, ← Expr.exists_resolve_iff]
  constructor
  · rintro ⟨e, parsed, hread, hresolve⟩
    exact ⟨parsed, hread, e, hresolve⟩
  · rintro ⟨parsed, hread, e, hresolve⟩
    exact ⟨e, parsed, hread, hresolve⟩

theorem names_eq_of_read (hread : Expr.read s = .ok parsed) :
    ∃ ts, Token.read s = .ok ts ∧ parsed.names = Formula.references (Formula.kinds ts) := by
  obtain ⟨ts, hts, hparsed⟩ := Expr.read_eq_ok_iff.mp hread
  exact ⟨ts, hts, hparsed.names_eq⟩

/-- The leftmost name that is no column is the failure of the formula. -/
theorem formula_eq_error_of_names (hread : Expr.read s = .ok parsed)
    (hname : ∃ n ∈ parsed.names, ¬ ∃ p, c.find n.1 n.2 = .ok p) :
    ∃ before name quoted after problem, parsed.names = before ++ (name, quoted) :: after ∧
      (∀ n ∈ before, ∃ p, c.find n.1 n.2 = .ok p) ∧
      c.find name quoted = .error ⟨name, problem⟩ ∧
      (parsed = .name name quoted → c.formula s = .error (.column ⟨name, problem⟩)) ∧
      (parsed ≠ .name name quoted →
        c.formula s = .error (.compile s (.column ⟨name, problem⟩))) := by
  cases hresolve : parsed.resolve c.find with
  | ok e =>
    obtain ⟨n, hn, hnone⟩ := hname
    exact absurd (Expr.exists_resolve_iff.mp ⟨e, hresolve⟩ n hn) hnone
  | error fault =>
    obtain ⟨before, ⟨name, quoted⟩, after, hnames, hfault, hbefore⟩ :=
      Expr.resolve_eq_error_iff.mp hresolve
    obtain ⟨problem, -, rfl⟩ := exists_of_mapError_eq_error hfault
    have hformula := formula_eq_error hread hresolve
    refine ⟨before, name, quoted, after, problem, hnames, hbefore, hfault, ?_, ?_⟩
    · rintro rfl
      exact hformula
    · intro hne
      rw [hformula, unknown_of_ne_name]
      rintro name' quoted' rfl
      -- a tree that is one name has no other
      have hmem : (name, quoted) ∈ (Expr.name name' quoted').names := by simp [hnames]
      exact hne (List.mem_singleton.mp (Expr.mem_names_iff.mp hmem)).symm

end Columns

namespace Table

variable {t : Table} {s : Text} {e : Expr}

theorem names_eq_nil_of_formula (h : t.columns.formula s = .ok e) : e.names = [] := by
  rw [List.eq_nil_iff_forall_not_mem]
  rintro ⟨name, quoted⟩ hname
  exact Expr.formed_of_mem_leaves (resolved_of_formula h) (Expr.mem_names_iff.mp hname)

theorem le_width_of_formula (h : t.columns.formula s = .ok e) {p : ℕ}
    (hp : Expr.column p ∈ e.leaves) : p ≤ t.width :=
  Expr.formed_of_mem_leaves (resolved_of_formula h) hp

/-- Which formulas a table can use, what becomes of them, and which name is to blame for a formula
that it cannot use. -/
theorem formula_resolves (t : Table) (s : Text) :
    ((∃ e, t.columns.formula s = .ok e) ↔ ∃ parsed, Expr.read s = .ok parsed ∧
      ∀ n ∈ parsed.names, ∃ p, t.columns.find n.1 n.2 = .ok p) ∧
    (∀ e, t.columns.formula s = .ok e →
      (∃ parsed, Expr.read s = .ok parsed ∧ Expr.Replaces t.columns.find parsed e) ∧
      e.names = [] ∧ (∀ p, .column p ∈ e.leaves → p ≤ t.width) ∧
      e.positions.Pairwise (· < ·) ∧ ∀ p, p ∈ e.positions ↔ .column p ∈ e.leaves) ∧
    ∀ parsed, Expr.read s = .ok parsed →
      (∃ ts, Token.read s = .ok ts ∧ parsed.names = Formula.references (Formula.kinds ts)) ∧
      ((∃ n ∈ parsed.names, ¬ ∃ p, t.columns.find n.1 n.2 = .ok p) →
        ∃ before name quoted after problem, parsed.names = before ++ (name, quoted) :: after ∧
          (∀ n ∈ before, ∃ p, t.columns.find n.1 n.2 = .ok p) ∧
          t.columns.find name quoted = .error ⟨name, problem⟩ ∧
          (parsed = .name name quoted →
            t.columns.formula s = .error (.column ⟨name, problem⟩)) ∧
          (parsed ≠ .name name quoted →
            t.columns.formula s = .error (.compile s (.column ⟨name, problem⟩)))) := by
  refine ⟨Columns.exists_formula_iff, fun e he => ?_, fun parsed hread => ?_⟩
  · obtain ⟨parsed, hread, hresolve⟩ := Columns.formula_eq_ok_iff.mp he
    refine ⟨⟨parsed, hread, Expr.replaces_of_resolve hresolve⟩, names_eq_nil_of_formula he,
      fun p => le_width_of_formula he, Expr.pairwise_positions e, fun p => ?_⟩
    rw [Expr.mem_positions, Expr.mem_columns_iff]
  · exact ⟨Columns.names_eq_of_read hread, Columns.formula_eq_error_of_names hread⟩

/-- Of two columns that the table does not have, the first is the failure. -/
theorem formula_resolves_leftmost :
    Columns.formula ⟨none, 1⟩ "$2*$3".toList =
      .error (.compile "$2*$3".toList (.column ⟨['$', '2'], .outOfRange 1⟩)) := by
  let t : Table := ⟨none, [.cells [['1']]]⟩
  let parsed : Expr := .binary .mul (.name ['$', '2'] false) (.name ['$', '3'] false)
  have htwo : t.columns.find ['$', '2'] false = .error ⟨['$', '2'], .outOfRange 1⟩ := rfl
  have hread : Expr.read "$2*$3".toList = .ok parsed := by
    have hfirst : Token.scan '$' "2*$3".toList = .ok (.dollar 2, 1) := rfl
    have hstar : Token.scan '*' "$3".toList = .ok (.star, 0) := rfl
    have hlast : Token.scan '$' "3".toList = .ok (.dollar 3, 1) := rfl
    refine Expr.read_eq_ok_iff.mpr ⟨[⟨.dollar 2, 0⟩, ⟨.star, 2⟩, ⟨.dollar 3, 3⟩], ?_, ?_⟩
    · refine Formula.readFrom_of_scan rfl hfirst (Formula.readFrom_of_scan rfl hstar ?_)
      exact Formula.readFrom_of_scan rfl hlast (Formula.readFrom_of_isBlank rfl)
    · have hproduct : Formula.IsTerm [.dollar 2, .star, .dollar 3] parsed :=
        .product (.unary (.power (.primary (.dollar 2)))) rfl (.power (.primary (.dollar 3)))
      exact .term hproduct
  obtain ⟨-, hfails⟩ := (formula_resolves t "$2*$3".toList).2.2 parsed hread
  obtain ⟨before, name, quoted, after, problem, hnames, hbefore, hfind, -, hformula⟩ :=
    hfails ⟨(['$', '2'], false), .head _, by simp [htwo]⟩
  cases before with
  | nil =>
    cases hnames
    cases htwo.symm.trans hfind
    exact hformula (by simp [parsed])
  | cons first before =>
    obtain ⟨rfl, -⟩ := List.cons.inj hnames
    obtain ⟨p, hp⟩ := hbefore _ (.head _)
    cases htwo.symm.trans hp

end Table

end Rollup
