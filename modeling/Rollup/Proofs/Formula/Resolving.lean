import Rollup.Column.Lookup
import Rollup.Proofs.Formula.Derivation

/-! # Trees that reading gives

A minus in front of a literal belongs to the literal, calls have as many arguments as their function
takes, and a resolved tree has the columns of its table in place of names.
-/

namespace Rollup

namespace Expr

def asNumber? : Expr → Option Float
  | number n => some n
  | _ => none

section Shape

variable (names : Prop) (columns : ℕ → Prop)

mutual

/-- A tree that reading can give, perhaps with names, and with these columns. -/
def Formed : Expr → Prop
  | number _ => True
  | name _ _ => names
  | column p => columns p
  | neg e => e.asNumber? = none ∧ Formed e
  | binary _ lhs rhs => Formed lhs ∧ Formed rhs
  | call f args => f.arity.accepts args.length ∧ FormedAll args

def FormedAll : List Expr → Prop
  | [] => True
  | e :: es => Formed e ∧ FormedAll es

end

end Shape

/-- Before it is resolved a tree has names and no columns. -/
def Unresolved (e : Expr) : Prop := e.Formed True fun _ => False

/-- A resolved tree has no names, and its columns are no further right than `width`. -/
def Resolved (width : ℕ) (e : Expr) : Prop := e.Formed False (· ≤ width)

theorem unresolved_negated {e : Expr} (h : e.Unresolved) : (Formula.negated e).Unresolved := by
  cases e <;> simp_all [Formula.negated, Unresolved, Formed, asNumber?]

end Expr

namespace Formula

mutual

theorem IsExpr.unresolved {l : List Token} {e : Expr} : IsExpr l e → e.Unresolved
  | .term h => h.unresolved
  | .sum hl _ hr => ⟨hl.unresolved, hr.unresolved⟩

theorem IsTerm.unresolved {l : List Token} {e : Expr} : IsTerm l e → e.Unresolved
  | .unary h => h.unresolved
  | .product hl _ hr => ⟨hl.unresolved, hr.unresolved⟩

theorem IsUnary.unresolved {l : List Token} {e : Expr} : IsUnary l e → e.Unresolved
  | .minus h => Expr.unresolved_negated h.unresolved
  | .plus h => h.unresolved
  | .power h => h.unresolved

theorem IsPower.unresolved {l : List Token} {e : Expr} : IsPower l e → e.Unresolved
  | .primary h => h.unresolved
  | .power hl hr => ⟨hl.unresolved, hr.unresolved⟩

theorem IsPrimary.unresolved {l : List Token} {e : Expr} : IsPrimary l e → e.Unresolved
  | .number _ | .name _ | .quoted _ | .dollar _ => trivial
  | .call _ h harity => ⟨harity, h.unresolved⟩
  | .parens h => h.unresolved

theorem IsArguments.unresolved {l : List Token} {args : List Expr} : IsArguments l args →
    Expr.FormedAll True (fun _ => False) args
  | .none => trivial
  | .some h => h.unresolved

theorem IsArgumentList.unresolved {l : List Token} {args : List Expr} : IsArgumentList l args →
    Expr.FormedAll True (fun _ => False) args
  | .one h => ⟨h.unresolved, trivial⟩
  | .cons hl hr => ⟨hl.unresolved, hr.unresolved⟩

end

end Formula

theorem Expr.unresolved_of_read {t : Text} {e : Expr} (h : Expr.read t = .ok e) : e.Unresolved := by
  obtain ⟨_, -, he⟩ := Expr.read_eq_ok_iff.mp h
  exact he.unresolved

/-! ## Resolving -/

namespace Expr

section Resolving

variable {ε : Type} {position : Text → Bool → Except ε ℕ}

theorem exists_of_resolve_binary {op : Operator} {lhs rhs e : Expr}
    (h : resolve position (binary op lhs rhs) = .ok e) : ∃ l r,
      resolve position lhs = .ok l ∧ resolve position rhs = .ok r ∧ e = binary op l r := by
  rw [resolve] at h
  split at h
  · cases h
  case h_2 l hl =>
    obtain ⟨r, hr, rfl⟩ := exists_of_map_eq_ok h
    exact ⟨l, r, hl, hr, rfl⟩

theorem exists_of_resolveAll_cons {e : Expr} {es rs : List Expr}
    (h : resolveAll position (e :: es) = .ok rs) : ∃ r rs',
      resolve position e = .ok r ∧ resolveAll position es = .ok rs' ∧ rs = r :: rs' := by
  rw [resolveAll] at h
  split at h
  · cases h
  case h_2 r hr =>
    obtain ⟨rs', hrs, rfl⟩ := exists_of_map_eq_ok h
    exact ⟨r, rs', hr, hrs, rfl⟩

theorem length_of_resolveAll {es rs : List Expr} (h : resolveAll position es = .ok rs) :
    rs.length = es.length := by
  induction es generalizing rs with
  | nil =>
    cases h
    rfl
  | cons e es ih =>
    obtain ⟨r, rs', -, hrs, rfl⟩ := exists_of_resolveAll_cons h
    simp [ih hrs]

theorem asNumber?_of_resolve {e r : Expr} (h : resolve position e = .ok r)
    (he : e.asNumber? = none) : r.asNumber? = none := by
  cases e with
  | number n => cases he
  | name t quoted =>
    obtain ⟨p, -, rfl⟩ := exists_of_map_eq_ok h
    rfl
  | column p =>
    cases h
    rfl
  | neg e =>
    obtain ⟨x, -, rfl⟩ := exists_of_map_eq_ok h
    rfl
  | binary op lhs rhs =>
    obtain ⟨_, _, -, -, rfl⟩ := exists_of_resolve_binary h
    rfl
  | call f args =>
    obtain ⟨_, -, rfl⟩ := exists_of_map_eq_ok h
    rfl

variable {columns : ℕ → Prop}

mutual

theorem formed_of_resolve (hposition : ∀ t quoted p, position t quoted = .ok p → columns p)
    {r : Expr} : ∀ {e : Expr}, e.Unresolved → resolve position e = .ok r → r.Formed False columns
  | number n, _, h => by
    cases h
    trivial
  | name t quoted, _, h => by
    obtain ⟨p, hp, rfl⟩ := exists_of_map_eq_ok h
    exact hposition t quoted p hp
  | column p, hformed, _ => hformed.elim
  | neg e, hformed, h => by
    obtain ⟨x, hx, rfl⟩ := exists_of_map_eq_ok h
    exact ⟨asNumber?_of_resolve hx hformed.1, formed_of_resolve hposition hformed.2 hx⟩
  | binary op lhs rhs, hformed, h => by
    obtain ⟨_, _, hl, hr, rfl⟩ := exists_of_resolve_binary h
    exact ⟨formed_of_resolve hposition hformed.1 hl, formed_of_resolve hposition hformed.2 hr⟩
  | call f args, hformed, h => by
    obtain ⟨rs, hrs, rfl⟩ := exists_of_map_eq_ok h
    refine ⟨?_, formedAll_of_resolve hposition hformed.2 hrs⟩
    rw [length_of_resolveAll hrs]
    exact hformed.1

theorem formedAll_of_resolve (hposition : ∀ t quoted p, position t quoted = .ok p → columns p)
    {rs : List Expr} : ∀ {es : List Expr}, FormedAll True (fun _ => False) es →
    resolveAll position es = .ok rs → FormedAll False columns rs
  | [], _, h => by
    cases h
    trivial
  | e :: es, hformed, h => by
    obtain ⟨r, rs', hr, hrs, rfl⟩ := exists_of_resolveAll_cons h
    exact ⟨formed_of_resolve hposition hformed.1 hr, formedAll_of_resolve hposition hformed.2 hrs⟩

end

end Resolving

end Expr

/-! ## Columns of a table -/

namespace Columns

variable {c : Columns} {s : Text} {e : Expr}

theorem formula_eq_ok_iff : c.formula s = .ok e ↔
    ∃ parsed, Expr.read s = .ok parsed ∧ parsed.resolve c.find = .ok e := by
  unfold formula
  constructor
  · intro h
    split at h
    · cases h
    case h_2 parsed hread => exact ⟨parsed, hread, eq_ok_of_mapError_eq_ok h⟩
  · rintro ⟨parsed, hread, hresolve⟩
    rw [hread]
    dsimp only
    rw [hresolve]
    rfl

end Columns

namespace Table

variable {t : Table}

theorem length_header_le_width {header : List Text} (h : t.header = some header) :
    header.length ≤ t.width := by
  have hmem : header.length ∈ 0 :: t.lines.map List.length := by simp [lines, h]
  exact List.le_max_of_mem hmem

theorem named_le_width {name : Text} {p : ℕ} (h : t.columns.named name = .ok p) :
    p ≤ t.width := by
  unfold Columns.named at h
  split at h
  · cases h
  case h_2 header hheader =>
    split at h
    case h_1 i hi =>
      cases h
      obtain ⟨hlt, -⟩ := List.findIdx?_eq_some_iff_getElem.mp hi
      have hwidth := length_header_le_width hheader
      omega
    case h_2 => cases h

theorem numbered_le_width {digits : Text} {p : ℕ} (h : t.columns.numbered digits = .ok p) :
    p ≤ t.width := by
  unfold Columns.numbered at h
  split at h
  · cases h
  · split at h
    · cases h
    case isFalse hle =>
      cases h
      exact Nat.not_lt.mp fun hlt => hle (.inr hlt)

theorem find_le_width {name : Text} {quoted : Bool} {p : ℕ}
    (h : t.columns.find name quoted = .ok p) : p ≤ t.width := by
  replace h := eq_ok_of_mapError_eq_ok h
  unfold Columns.position at h
  split at h
  · exact named_le_width h
  · split at h
    · cases h
      exact Nat.zero_le _
    · split at h
      · exact numbered_le_width h
      · exact named_le_width h

theorem resolved_of_formula {s : Text} {e : Expr} (h : t.columns.formula s = .ok e) :
    e.Resolved t.width := by
  obtain ⟨parsed, hread, hresolve⟩ := Columns.formula_eq_ok_iff.mp h
  exact Expr.formed_of_resolve (fun _ _ _ => find_le_width) (Expr.unresolved_of_read hread) hresolve

end Table

end Rollup
