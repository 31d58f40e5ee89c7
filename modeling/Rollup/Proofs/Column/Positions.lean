import Rollup.Proofs.Formula.Resolving
import Rollup.Proofs.Formula.Words

/-! # Columns by their positions

A dollar sign and a position name a column in formulas and in lists of columns. Both read the same
texts as positions, except that a list also takes a plus sign in front of the digits.
-/

namespace Rollup

/-! ## The formula that is a position -/

namespace Formula

variable {l : List Token} {n : ℕ} {name : Text} {quoted : Bool}

theorem IsPrimary.eq_of_dollar (h : IsPrimary l (.name name quoted))
    (hl : l.head? = some (.dollar n)) :
    l = [.dollar n] ∧ name = '$' :: Text.ofNat n ∧ quoted = false := by
  cases h <;> cases hl
  exact ⟨rfl, rfl, rfl⟩

/-- A formula that starts with a column number and is a mere name has nothing after the number. -/
theorem IsExpr.eq_of_dollar (h : IsExpr l (.name name quoted))
    (hl : l.head? = some (.dollar n)) :
    l = [.dollar n] ∧ name = '$' :: Text.ofNat n ∧ quoted = false := by
  obtain ⟨⟨hunary⟩⟩ := h
  generalize he : Expr.name name quoted = e at hunary
  cases hunary with
  | minus | plus => cases hl
  | power hpower =>
    subst he
    obtain ⟨hprimary⟩ := hpower
    exact hprimary.eq_of_dollar hl

end Formula

theorem Token.exists_head?_of_read {u : Text} {ts : Formula.Tokens}
    (h : Token.read ('$' :: u) = .ok ts) :
    ∃ n, (Formula.kinds ts).head? = some (.dollar n) := by
  have hwhite : Text.isWhite '$' = false := rfl
  rw [Token.read, Token.readFrom, if_neg (by simp [hwhite]), Formula.scan_dollar] at h
  cases hdigits : Text.toNatBelow? Text.countBound (u.takeWhile Char.isDigit) with
  | none => simp [hdigits] at h
  | some n =>
    simp only [hdigits] at h
    obtain ⟨_, -, rfl⟩ := exists_of_map_eq_ok h
    exact ⟨n, rfl⟩

theorem Token.writtenAs_dollar_iff {u : Text} {n : ℕ} :
    Token.WrittenAs (.dollar n) ('$' :: u) ↔ Text.toNatBelow? Text.countBound u = some n := by
  constructor
  · intro h
    cases h with
    | dollar h => exact h
    | symbol h => cases h
  · exact .dollar

/-- Only a name becomes a column. -/
theorem Expr.exists_of_resolve_eq_column {ε : Type} {position : Text → Bool → Except ε ℕ}
    {e : Expr} {p : ℕ} (he : e.Unresolved) (h : e.resolve position = .ok (.column p)) :
    ∃ name quoted, e = .name name quoted ∧ position name quoted = .ok p := by
  cases e with
  | number => cases h
  | name name quoted =>
    obtain ⟨q, hq, heq⟩ := exists_of_map_eq_ok h
    cases heq
    exact ⟨name, quoted, rfl, hq⟩
  | column => exact he.elim
  | neg | call =>
    obtain ⟨_, -, heq⟩ := exists_of_map_eq_ok h
    cases heq
  | binary =>
    obtain ⟨_, _, -, -, heq⟩ := exists_of_resolve_binary h
    cases heq

theorem Expr.read_dollar_iff {u : Text} (hu : ∀ a ∈ u, Text.isWhite a = false) {name : Text}
    {quoted : Bool} : Expr.read ('$' :: u) = .ok (.name name quoted) ↔
      ∃ n, Text.toNatBelow? Text.countBound u = some n ∧ name = '$' :: Text.ofNat n ∧
        quoted = false := by
  have hwhite : ∀ a ∈ '$' :: u, Text.isWhite a = false := List.forall_mem_cons.mpr ⟨rfl, hu⟩
  rw [Expr.read_eq_ok_iff]
  constructor
  · rintro ⟨ts, hts, he⟩
    obtain ⟨n, hn⟩ := Token.exists_head?_of_read hts
    obtain ⟨hkinds, rfl, rfl⟩ := he.eq_of_dollar hn
    obtain ⟨offset, _, rfl, hnil⟩ := Formula.kinds_eq_cons hkinds
    cases List.map_eq_nil_iff.mp hnil
    obtain ⟨-, hword⟩ := (Token.read_eq_singleton_iff hwhite).mp hts
    exact ⟨n, Token.writtenAs_dollar_iff.mp hword, rfl, rfl⟩
  · rintro ⟨n, hn, rfl, rfl⟩
    have hword := Token.writtenAs_dollar_iff.mpr hn
    exact ⟨_, (Token.read_eq_singleton_iff hwhite).mpr ⟨rfl, hword⟩,
      .term (.unary (.power (.primary (.dollar n))))⟩

/-! ## The list of one item -/

theorem ColumnSpec.splitList_singleton {t : Text} (hne : t ≠ [])
    (ht : ∀ a ∈ t, Text.isWhite a = false ∧ Text.isQuote a = false) :
    splitList t = .ok [t] := by
  have hclosed : (t.foldl Nesting.step {}).quote = none := by
    rw [quote_foldl_step]
    refine Text.foldl_of_still fun a ha => ?_
    simp [Text.quoteAfter, (ht a ha).2]
  have hsplit : Text.splitWhere Nesting.step Nesting.cuts {} t = [t] := by
    refine Text.splitWhere_of_not_cuts (fun a ha n => ?_) _
    simp [Nesting.cuts, (ht a ha).1]
  unfold splitList
  rw [hsplit, hclosed]
  simp [hne]

/-! ## The digits -/

namespace Text

theorem lt_of_toNatBelow? {bound n : ℕ} {t : Text} (h : toNatBelow? bound t = some n) :
    n < bound := by
  unfold toNatBelow? at h
  split at h
  case isTrue hall =>
    cases h
    exact hall.2.2
  case isFalse => cases h

theorem signedToNatBelow?_eq_some_iff {bound n : ℕ} {t : Text} :
    signedToNatBelow? bound t = some n ↔
      toNatBelow? bound t = some n ∨ ∃ u, t = '+' :: u ∧ toNatBelow? bound u = some n := by
  unfold signedToNatBelow?
  split
  case h_1 u =>
    have hplus : toNatBelow? bound ('+' :: u) = none := if_neg (by simp)
    simp [hplus]
  case h_2 hplus =>
    refine (or_iff_left ?_).symm
    rintro ⟨u, rfl, -⟩
    exact hplus u rfl

theorem signedToNatBelow?_ofNat (bound n : ℕ) :
    signedToNatBelow? bound (ofNat n) = if n < bound then some n else none := by
  rw [← Number.toNatBelow?_ofNat, signedToNatBelow?]
  intro u hu
  have hdigit : '+'.isDigit := Number.isDigit_of_mem_ofNat (n := n) (by simp [hu])
  cases hdigit

end Text

/-! ## Positions that a table has -/

namespace Columns

variable {c : Columns} {u : Text} {p : ℕ}

theorem numbered_eq_ok_iff : c.numbered u = .ok p ↔
    Text.signedToNatBelow? Text.countBound u = some p ∧ 1 ≤ p ∧ p ≤ c.width := by
  unfold numbered
  split
  case h_1 hnone => simp [hnone]
  case h_2 n hn =>
    rw [hn]
    split
    · simp
      omega
    · simp
      omega

theorem find_dollar_eq_ok_iff : c.find ('$' :: u) false = .ok p ↔ c.numbered u = .ok p := by
  have hblock : '$' :: u ≠ blockName := by simp [blockName]
  rw [find, position, if_neg Bool.false_ne_true, if_neg hblock]
  constructor
  · exact eq_ok_of_mapError_eq_ok
  · intro h
    rw [h]
    rfl

theorem find_ofNat_eq_ok_iff {n : ℕ} (hn : n < Text.countBound) :
    c.find ('$' :: Text.ofNat n) false = .ok p ↔ n = p ∧ 1 ≤ p ∧ p ≤ c.width := by
  rw [find_dollar_eq_ok_iff, numbered_eq_ok_iff, Text.signedToNatBelow?_ofNat, if_pos hn,
    Option.some_inj]

/-- A formula is a column just when its digits are a position that the table has. -/
theorem formula_dollar_eq_column_iff (hu : ∀ a ∈ u, Text.isWhite a = false) :
    c.formula ('$' :: u) = .ok (.column p) ↔
      Text.toNatBelow? Text.countBound u = some p ∧ 1 ≤ p ∧ p ≤ c.width := by
  rw [formula_eq_ok_iff]
  constructor
  · rintro ⟨parsed, hread, hresolve⟩
    obtain ⟨name, quoted, rfl, hfind⟩ :=
      Expr.exists_of_resolve_eq_column (Expr.unresolved_of_read hread) hresolve
    obtain ⟨n, hn, rfl, rfl⟩ := (Expr.read_dollar_iff hu).mp hread
    obtain ⟨rfl, hp⟩ := (find_ofNat_eq_ok_iff (Text.lt_of_toNatBelow? hn)).mp hfind
    exact ⟨hn, hp⟩
  · rintro ⟨hn, hp⟩
    have hfind : c.find ('$' :: Text.ofNat p) false = .ok p :=
      (find_ofNat_eq_ok_iff (Text.lt_of_toNatBelow? hn)).mpr ⟨rfl, hp⟩
    refine ⟨_, (Expr.read_dollar_iff hu).mpr ⟨p, hn, rfl, rfl⟩, ?_⟩
    rw [Expr.resolve, hfind]
    rfl

/-- A list is a column just when its digits, perhaps after a plus sign, are a position that the
table has. -/
theorem list_dollar_eq_singleton_iff
    (hu : ∀ a ∈ u, Text.isWhite a = false ∧ Text.isQuote a = false) :
    c.list ('$' :: u) = .ok [p] ↔
      Text.signedToNatBelow? Text.countBound u = some p ∧ 1 ≤ p ∧ p ≤ c.width := by
  have hsplit : ColumnSpec.splitList ('$' :: u) = .ok ['$' :: u] :=
    ColumnSpec.splitList_singleton (List.cons_ne_nil _ _) (List.forall_mem_cons.mpr ⟨⟨rfl, rfl⟩, hu⟩)
  have hunquoted : Text.unquote? ('$' :: u) = none := rfl
  rw [← numbered_eq_ok_iff, ← find_dollar_eq_ok_iff, list, hsplit]
  change ['$' :: u].mapM c.item = _ ↔ _
  rw [List.mapM_cons, item, hunquoted]
  dsimp only
  cases c.find ('$' :: u) false with
  | error fault => simp [Except.mapError, bind, Except.bind]
  | ok q => simp [Except.mapError, bind, Except.bind, pure, Except.pure]

/-- The texts without white space and quotes that a list reads as a position are those that a
formula reads as this position, and the same ones with a plus sign before the digits. -/
theorem list_dollar_iff (c : Columns) {u : Text}
    (hu : ∀ a ∈ u, Text.isWhite a = false ∧ Text.isQuote a = false) (p : ℕ) :
    c.list ('$' :: u) = .ok [p] ↔ c.formula ('$' :: u) = .ok (.column p) ∨
      ∃ v, u = '+' :: v ∧ c.formula ('$' :: v) = .ok (.column p) := by
  have hwhite : ∀ a ∈ u, Text.isWhite a = false := fun a ha => (hu a ha).1
  have hrest : ∀ v, u = '+' :: v → ∀ a ∈ v, Text.isWhite a = false := by
    rintro v rfl
    exact (List.forall_mem_cons.mp hwhite).2
  rw [list_dollar_eq_singleton_iff hu, Text.signedToNatBelow?_eq_some_iff,
    formula_dollar_eq_column_iff hwhite, or_and_right]
  refine or_congr Iff.rfl ⟨?_, ?_⟩
  · rintro ⟨⟨v, hv, hdigits⟩, hp⟩
    exact ⟨v, hv, (formula_dollar_eq_column_iff (hrest v hv)).mpr ⟨hdigits, hp⟩⟩
  · rintro ⟨v, hv, hformula⟩
    obtain ⟨hdigits, hp⟩ := (formula_dollar_eq_column_iff (hrest v hv)).mp hformula
    exact ⟨⟨v, hv, hdigits⟩, hp⟩

/-- Zeros in front do not matter to either. -/
theorem list_dollar_zeros :
    (∀ a ∈ "007".toList, Text.isWhite a = false ∧ Text.isQuote a = false) ∧
      list ⟨none, 7⟩ "$007".toList = .ok [7] ∧
      formula ⟨none, 7⟩ "$007".toList = .ok (.column 7) := by
  have hplain : ∀ a ∈ "007".toList, Text.isWhite a = false ∧ Text.isQuote a = false := by
    have hall : ("007".toList.all fun a => !Text.isWhite a && !Text.isQuote a) = true := rfl
    simpa using hall
  have hlist : list ⟨none, 7⟩ "$007".toList = .ok [7] := rfl
  refine ⟨hplain, hlist, ?_⟩
  rcases (list_dollar_iff ⟨none, 7⟩ hplain 7).mp hlist with h | ⟨v, hv, -⟩
  · exact h
  · cases hv

/-- A plus sign before the digits makes a position of a list and none of a formula. -/
theorem list_dollar_plus :
    list ⟨none, 2⟩ "$+1".toList = .ok [1] ∧
      formula ⟨none, 2⟩ "$+1".toList ≠ .ok (.column 1) := by
  refine ⟨rfl, fun h => ?_⟩
  have hwhite : ∀ a ∈ "+1".toList, Text.isWhite a = false := by
    have hall : ("+1".toList.all fun a => !Text.isWhite a) = true := rfl
    simpa using hall
  obtain ⟨hdigits, -⟩ := (formula_dollar_eq_column_iff hwhite).mp h
  cases hdigits

end Columns

end Rollup
