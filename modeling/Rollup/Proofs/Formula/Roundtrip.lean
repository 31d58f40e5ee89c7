import Rollup.Proofs.Formula.Printing

/-! # Which formulas survive printing

A resolved formula is the same after it is printed and read again, unless a negative literal is the
base of one of its powers or a literal of it is infinite.
-/

namespace Rollup

namespace Expr

open Formula Number

mutual

/-- The condition under which the text of a resolved tree gives the tree back. -/
def PrintsBack : Expr → Prop
  | number n => n.isFinite
  | name _ _ => False
  | column p => p < Text.countBound
  | neg e => e.PrintsBack
  | binary op lhs rhs =>
    ¬ (op = .pow ∧ lhs.isNegativeLiteral) ∧ lhs.PrintsBack ∧ rhs.PrintsBack
  | call _ args => AllPrintBack args

def AllPrintBack : List Expr → Prop
  | [] => True
  | e :: es => e.PrintsBack ∧ AllPrintBack es

end

mutual

def decidablePrintsBack : (e : Expr) → Decidable e.PrintsBack
  | number n => inferInstanceAs (Decidable (n.isFinite = true))
  | name _ _ => inferInstanceAs (Decidable False)
  | column p => inferInstanceAs (Decidable (p < Text.countBound))
  | neg e => decidablePrintsBack e
  | binary op lhs rhs =>
    have := decidablePrintsBack lhs
    have := decidablePrintsBack rhs
    inferInstanceAs (Decidable (¬ (op = .pow ∧ lhs.isNegativeLiteral) ∧ _ ∧ _))
  | call _ args => decidableAllPrintBack args

def decidableAllPrintBack : (es : List Expr) → Decidable (AllPrintBack es)
  | [] => inferInstanceAs (Decidable True)
  | e :: es =>
    have := decidablePrintsBack e
    have := decidableAllPrintBack es
    inferInstanceAs (Decidable (_ ∧ _))

end

instance : DecidablePred PrintsBack := decidablePrintsBack

/-! ## Positions in range -/

theorem all_inRange_wrapped (needed : Bool) (l : List Token) :
    (wrapped needed l).all inRange = l.all inRange := by
  cases needed with
  | false => rfl
  | true => simp [wrapped, inRange]

theorem all_inRange_literal (n : Float) : (literalTokens n).all inRange := by
  unfold literalTokens
  repeat' split
  all_goals rfl

mutual

theorem PrintsBack.all_inRange : ∀ {e : Expr}, e.PrintsBack → e.tokens.all inRange
  | number n, _ => all_inRange_literal n
  | column p, h => by
    rw [tokens]
    split
    · rfl
    · exact (Bool.and_true _).trans (decide_eq_true h)
  | neg e, h => by
    rw [tokens, List.all_cons, all_inRange_wrapped]
    exact PrintsBack.all_inRange (e := e) h
  | binary op lhs rhs, h => by
    have hop : inRange (operatorToken op) = true := by cases op <;> rfl
    rw [tokens, List.all_append, List.all_cons, all_inRange_wrapped, all_inRange_wrapped, hop,
      h.2.1.all_inRange, h.2.2.all_inRange]
    rfl
  | call f args, h => by
    have hargs := AllPrintBack.all_inRange h
    simp [tokens, inRange, hargs]

theorem AllPrintBack.all_inRange : ∀ {args : List Expr}, AllPrintBack args →
    (tokensOfAll args).all inRange
  | [], _ => rfl
  | [_], h => h.1.all_inRange
  | e :: e' :: es, h => by
    have htail : (tokensOfAll (e' :: es)).all inRange := AllPrintBack.all_inRange h.2
    rw [tokensOfAll, List.all_append, h.1.all_inRange, List.all_cons, htail]
    · rfl
    · simp

end

/-! ## Resolving what was read -/

section Resolving

variable {ε : Type} {position : Text → Bool → Except ε ℕ} {op : Operator} {x y e r : Expr}
  {xs es : List Expr}

theorem resolve_neg_eq_ok_iff : resolve position (neg x) = .ok (neg e) ↔
    resolve position x = .ok e := by
  rw [resolve]
  cases resolve position x <;> simp [Except.map]

theorem resolve_binary_eq_ok_iff : resolve position (binary op x y) = .ok (binary op e r) ↔
    resolve position x = .ok e ∧ resolve position y = .ok r := by
  rw [resolve]
  cases resolve position x <;> cases resolve position y <;> simp [Except.map]

theorem resolve_call_eq_ok_iff {f : Function} :
    resolve position (call f xs) = .ok (call f es) ↔ resolveAll position xs = .ok es := by
  rw [resolve]
  cases resolveAll position xs <;> simp [Except.map]

theorem resolveAll_cons_eq_ok_iff : resolveAll position (x :: xs) = .ok (e :: es) ↔
    resolve position x = .ok e ∧ resolveAll position xs = .ok es := by
  rw [resolveAll]
  cases resolve position x <;> cases resolveAll position xs <;> simp [Except.map]

theorem resolve_name_ne_number {t : Text} {quoted : Bool} {n : Float} :
    resolve position (name t quoted) ≠ .ok (number n) := by
  rw [resolve]
  cases position t quoted <;> simp [Except.map]

theorem resolve_neg_ne_number {n : Float} : resolve position (neg x) ≠ .ok (number n) := by
  rw [resolve]
  cases resolve position x <;> simp [Except.map]

theorem resolve_neg_ne_binary : resolve position (neg x) ≠ .ok (binary op e r) := by
  rw [resolve]
  cases resolve position x <;> simp [Except.map]

theorem resolve_literal_eq_ok_iff {n : Float} :
    resolve position (rereadLiteral n) = .ok (number n) ↔ n.isFinite := by
  unfold rereadLiteral
  split
  case isTrue h => simp [resolve, h]
  case isFalse h =>
    refine iff_of_false ?_ h
    split
    · exact resolve_name_ne_number
    · split
      · exact resolve_neg_ne_number
      · exact resolve_name_ne_number

end Resolving

theorem signedToNatBelow?_ofNat (bound n : ℕ) :
    Text.signedToNatBelow? bound (Text.ofNat n) = if n < bound then some n else none := by
  rw [← Number.toNatBelow?_ofNat]
  unfold Text.signedToNatBelow?
  split
  case h_1 heq =>
    have hdigit : '+'.isDigit := isDigit_of_mem_ofNat (n := n) (by simp [heq])
    cases hdigit
  case h_2 => rfl

theorem find_printed_eq_ok_iff {t : Table} {p : ℕ} (hp : p ≤ t.width) :
    t.columns.find (if p = blockPosition then blockName else '$' :: Text.ofNat p) false = .ok p ↔
      p < Text.countBound := by
  split
  case isTrue h =>
    subst h
    exact iff_of_true rfl (by decide)
  case isFalse h =>
    have hposition : t.columns.position ('$' :: Text.ofNat p) false =
        t.columns.numbered (Text.ofNat p) := rfl
    have hwidth : ¬ (p = 0 ∨ t.columns.width < p) := by
      rintro (hzero | hlt)
      · exact h hzero
      · exact absurd hp (Nat.not_le.mpr hlt)
    rw [Columns.find, hposition, Columns.numbered, signedToNatBelow?_ofNat]
    by_cases hbound : p < Text.countBound
    · simp only [if_pos hbound, if_neg hwidth]
      exact iff_of_true rfl hbound
    · simp only [if_neg hbound]
      exact iff_of_false (fun h => by cases h) hbound

theorem resolve_column_eq_ok_iff {t : Table} {p : ℕ} (hp : p ≤ t.width) :
    (column p).reread.resolve t.columns.find = .ok (column p) ↔ p < Text.countBound := by
  rw [← find_printed_eq_ok_iff hp, reread, resolve]
  cases t.columns.find (if p = blockPosition then blockName else '$' :: Text.ofNat p) false <;>
    simp [Except.map]

variable {t : Table}

mutual

theorem resolve_reread_eq_ok_iff : ∀ {e : Expr}, e.Resolved t.width →
    (e.reread.resolve t.columns.find = .ok e ↔ e.PrintsBack)
  | number _, _ => resolve_literal_eq_ok_iff
  | column _, h => resolve_column_eq_ok_iff h
  | neg _, h => resolve_neg_eq_ok_iff.trans (resolve_reread_eq_ok_iff h.2)
  | binary op lhs rhs, h => by
    rw [reread, PrintsBack, ← resolve_reread_eq_ok_iff h.1, ← resolve_reread_eq_ok_iff h.2]
    split
    case isTrue hneg => exact iff_of_false resolve_neg_ne_binary fun h => h.1 hneg
    case isFalse hneg => exact resolve_binary_eq_ok_iff.trans (and_iff_right hneg).symm
  | call _ _, h => resolve_call_eq_ok_iff.trans (resolveAll_rereadAll_eq_ok_iff h.2)

theorem resolveAll_rereadAll_eq_ok_iff : ∀ {es : List Expr}, FormedAll False (· ≤ t.width) es →
    (resolveAll t.columns.find (rereadAll es) = .ok es ↔ AllPrintBack es)
  | [], _ => iff_of_true rfl trivial
  | _ :: _, h => resolveAll_cons_eq_ok_iff.trans
    (and_congr (resolve_reread_eq_ok_iff h.1) (resolveAll_rereadAll_eq_ok_iff h.2))

end

theorem read_of_scans {s : Text} {l : List Token} {e : Expr} (h : Scans s l)
    (hrange : l.all inRange) (he : IsExpr l e) : Expr.read s = .ok e := by
  have htokens := h.tokens?
  rw [if_pos hrange] at htokens
  exact read_of_tokens? htokens he

theorem read_print {e : Expr} (h : e.Resolved t.width) (hrange : e.tokens.all inRange) :
    Expr.read e.print = .ok e.reread :=
  read_of_scans (scans_print h) hrange (isLevel_tokens h).expr

/-- A text can only be read when the numbers of its columns are in range. -/
theorem all_inRange_of_read {e parsed : Expr} (h : e.Resolved t.width)
    (hread : Expr.read e.print = .ok parsed) : e.tokens.all inRange := by
  obtain ⟨ts, hts, -⟩ := read_eq_ok_iff.mp hread
  have htokens := (scans_print h).tokens?
  by_contra hrange
  rw [if_neg hrange, tokens?, hts] at htokens
  cases htokens

end Expr

/-- The text that a resolved formula is printed as gives the same tree for the same table exactly
when all its literals are finite, no negative literal is the base of a power and the positions of
its columns fit in 64 bits. -/
theorem Table.formula_print_eq_ok_iff {t : Table} {s : Text} {e : Expr}
    (h : t.columns.formula s = .ok e) : t.columns.formula e.print = .ok e ↔ e.PrintsBack := by
  have hresolved := resolved_of_formula h
  rw [Columns.formula_eq_ok_iff, ← Expr.resolve_reread_eq_ok_iff hresolved]
  constructor
  · rintro ⟨parsed, hread, hparsed⟩
    -- Reading is a function, so that what was read is the tree of the tokens.
    have hreread := Expr.read_print hresolved (Expr.all_inRange_of_read hresolved hread)
    rw [hreread] at hread
    cases hread
    exact hparsed
  · intro hreread
    have hprints := (Expr.resolve_reread_eq_ok_iff hresolved).mp hreread
    exact ⟨e.reread, Expr.read_print hresolved hprints.all_inRange, hreread⟩

/-! ## Squares -/

section Squares

open Formula Number

theorem scans_digit {c : Char} {n : Float} (hc : c.isDigit)
    (hn : Numeral.value? ⟨[c], [], 0⟩ = some n) : Scans [c] [.number n] := by
  have hdecimal : IsDecimal [c] [] := ⟨by simp, by simpa using hc, by simp⟩
  exact Scans.number hdecimal hn

def oneColumn : Table := ⟨none, [.cells [['1']]]⟩

def square (e : Expr) : Expr := .binary .pow e (.number 2)

theorem formula_square_column :
    oneColumn.columns.formula ['$', '1', '^', '2'] = .ok (square (.column 1)) := by
  refine Columns.formula_eq_ok_iff.mpr ⟨square (.name ['$', '1'] false), ?_, rfl⟩
  have hscan : Scans ['$', '1', '^', '2'] [.dollar 1, .caret, .number 2] :=
    (Scans.dollar 1).append_symbol rfl (scans_digit (by decide) (by decide))
  refine Expr.read_of_scans hscan (by decide) ?_
  exact .term (.unary (.power (.power (.dollar 1) (.power (.primary (.number 2))))))

theorem Table.formula_print_square_column :
    oneColumn.columns.formula ['$', '1', '^', '2'] = .ok (square (.column 1)) ∧
      oneColumn.columns.formula (square (.column 1)).print = .ok (square (.column 1)) := by
  have hprints : (square (.column 1)).PrintsBack := by decide
  exact ⟨formula_square_column, (Table.formula_print_eq_ok_iff formula_square_column).mpr hprints⟩

theorem formula_square_parens : oneColumn.columns.formula ['(', '-', '4', ')', '^', '2'] =
    .ok (square (.number (-4))) := by
  refine Columns.formula_eq_ok_iff.mpr ⟨square (.number (-4)), ?_, rfl⟩
  have hscan : Scans ['(', '-', '4', ')', '^', '2']
      [.lparen, .minus, .number 4, .rparen, .caret, .number 2] :=
    .symbol rfl (.symbol rfl ((scans_digit (c := '4') (by decide) (by decide)).append_symbol rfl
      (.symbol rfl (scans_digit (by decide) (by decide)))))
  refine Expr.read_of_scans hscan (by decide) ?_
  have hbase : IsPrimary [.lparen, .minus, .number 4, .rparen] (.number (-4)) :=
    .parens (.term (.unary (.minus (.power (.primary (.number 4))))))
  exact .term (.unary (.power (.power hbase (.power (.primary (.number 2))))))

theorem formula_square_minus : oneColumn.columns.formula ['-', '4', '^', '2'] =
    .ok (.neg (square (.number 4))) := by
  refine Columns.formula_eq_ok_iff.mpr ⟨.neg (square (.number 4)), ?_, rfl⟩
  have hscan : Scans ['-', '4', '^', '2'] [.minus, .number 4, .caret, .number 2] :=
    .symbol rfl ((scans_digit (c := '4') (by decide) (by decide)).append_symbol rfl
      (scans_digit (by decide) (by decide)))
  refine Expr.read_of_scans hscan (by decide) ?_
  exact .term (.unary (.minus (.power (.power (.number 4) (.power (.primary (.number 2)))))))

theorem Table.formula_print_negative_base :
    oneColumn.columns.formula ['(', '-', '4', ')', '^', '2'] = .ok (square (.number (-4))) ∧
      (square (.number (-4))).print = ['-', '4', '^', '2'] ∧
      oneColumn.columns.formula (square (.number (-4))).print ≠ .ok (square (.number (-4))) := by
  have hprint : (square (.number (-4))).print = ['-', '4', '^', '2'] := by decide +kernel
  refine ⟨formula_square_parens, hprint, ?_⟩
  rw [hprint, formula_square_minus]
  intro h
  cases h

end Squares

end Rollup
