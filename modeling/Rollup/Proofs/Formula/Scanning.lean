import Rollup.Proofs.Double.Shortest
import Rollup.Proofs.Formula.Derivation
import Rollup.Proofs.Number.Amount
import Rollup.Proofs.Text.Cut
import Rollup.Proofs.Text.Trim

/-! # Tokens of a text

A piece of text has the same tokens wherever it stands, as long as a symbol or the end follows it.
-/

namespace Rollup.Formula

/-- The tokens of a text, without their offsets. -/
def tokens? (t : Text) : Option (List Token) := ((Token.read t).map kinds).toOption

theorem toOption_map_cons (x : Except FormulaFault Tokens) (t : PlacedToken) :
    ((x.map (t :: ·)).map kinds).toOption = (x.map kinds).toOption.map (t.token :: ·) := by
  cases x <;> rfl

theorem toOption_readFrom (offset : ℕ) (t : Text) :
    ((Token.readFrom offset t).map kinds).toOption = tokens? t := by
  suffices h : ∀ offset offset', ((Token.readFrom offset t).map kinds).toOption =
      ((Token.readFrom offset' t).map kinds).toOption from h offset 0
  intro offset offset'
  fun_induction Token.readFrom offset t generalizing offset' with
  | case1 => rw [Token.readFrom]
  | case2 offset c t hwhite ih =>
    rw [Token.readFrom, if_pos hwhite]
    exact ih _
  | case3 offset c t hwhite problem hscan =>
    rw [Token.readFrom, if_neg hwhite, hscan]
    rfl
  | case4 offset c t hwhite token used hscan ih =>
    rw [Token.readFrom, if_neg hwhite, hscan]
    dsimp only
    rw [toOption_map_cons, toOption_map_cons, ih]

@[simp] theorem tokens?_nil : tokens? [] = some [] := by
  unfold tokens? Token.read
  rw [Token.readFrom]
  rfl

theorem exists_of_tokens? {t : Text} {l : List Token} (h : tokens? t = some l) :
    ∃ ts, Token.read t = .ok ts ∧ kinds ts = l := by
  unfold tokens? at h
  cases hread : Token.read t with
  | error e =>
    rw [hread] at h
    cases h
  | ok ts =>
    rw [hread] at h
    exact ⟨ts, rfl, Option.some.inj h⟩

theorem read_of_tokens? {t : Text} {l : List Token} {e : Expr} (h : tokens? t = some l)
    (he : IsExpr l e) : Expr.read t = .ok e := by
  obtain ⟨ts, hts, rfl⟩ := exists_of_tokens? h
  exact Expr.read_eq_ok_iff.mpr ⟨ts, hts, he⟩

theorem tokens?_of_white {c : Char} (h : Text.isWhite c) (t : Text) :
    tokens? (c :: t) = tokens? t := by
  rw [tokens?, Token.read, Token.readFrom, if_pos h, toOption_readFrom]

theorem tokens?_of_scan {c : Char} {t : Text} {token : Token} {used : ℕ}
    (hwhite : Text.isWhite c = false) (h : Token.scan c t = .ok (token, used)) :
    tokens? (c :: t) = (tokens? (t.drop used)).map (token :: ·) := by
  rw [tokens?, Token.read, Token.readFrom, if_neg (by simp [hwhite]), h]
  dsimp only
  rw [toOption_map_cons, toOption_readFrom]

theorem tokens?_of_scan_append {c : Char} {t rest : Text} {token : Token} {used : ℕ}
    (hwhite : Text.isWhite c = false) (h : Token.scan c (t ++ rest) = .ok (token, used))
    (hused : used = t.length) : tokens? (c :: t ++ rest) = (tokens? rest).map (token :: ·) := by
  rw [List.cons_append, tokens?_of_scan hwhite h, hused, List.drop_left]

theorem tokens?_of_problem {c : Char} {t : Text} {problem : FormulaProblem}
    (hwhite : Text.isWhite c = false) (h : Token.scan c t = .error problem) :
    tokens? (c :: t) = none := by
  rw [tokens?, Token.read, Token.readFrom, if_neg (by simp [hwhite]), h]
  rfl

/-! ## Symbols -/

/-- The text is empty or starts with a symbol. -/
def Ends (rest : Text) : Prop := ∀ c ∈ rest.head?, ∃ token, Token.symbol? c = some token

def symbols : List Char := ['+', '-', '*', '/', '^', '(', ')', ',']

section Symbols

variable {c : Char} {token : Token}

theorem mem_symbols (h : Token.symbol? c = some token) : c ∈ symbols := by
  unfold Token.symbol? at h
  split at h
  case h_9 => cases h
  all_goals simp [symbols]

theorem isWhite_of_symbol (h : Token.symbol? c = some token) : Text.isWhite c = false := by
  have hall : symbols.all fun c => !Text.isWhite c := rfl
  simpa using List.all_eq_true.mp hall c (mem_symbols h)

theorem isNamePart_of_symbol (h : Token.symbol? c = some token) : Token.isNamePart c = false := by
  have hall : symbols.all fun c => !Token.isNamePart c := rfl
  simpa using List.all_eq_true.mp hall c (mem_symbols h)

theorem isDigit_of_symbol (h : Token.symbol? c = some token) : c.isDigit = false := by
  have hall : symbols.all fun c => !c.isDigit := rfl
  simpa using List.all_eq_true.mp hall c (mem_symbols h)

theorem symbol_ne (h : Token.symbol? c = some token) : c ≠ '.' ∧ c ≠ 'e' ∧ c ≠ 'E' := by
  have hall : symbols.all fun c => c ≠ '.' ∧ c ≠ 'e' ∧ c ≠ 'E' := rfl
  simpa using List.all_eq_true.mp hall c (mem_symbols h)

theorem scan_of_symbol (h : Token.symbol? c = some token) (t : Text) :
    Token.scan c t = .ok (token, 0) := by
  unfold Token.scan
  rw [h]

theorem tokens?_of_symbol (h : Token.symbol? c = some token) (t : Text) :
    tokens? (c :: t) = (tokens? t).map (token :: ·) :=
  tokens?_of_scan (isWhite_of_symbol h) (scan_of_symbol h t)

end Symbols

theorem Ends.not_of_mem_head? {p : Char → Bool} {rest : Text} (h : Ends rest)
    (hp : ∀ c token, Token.symbol? c = some token → p c = false) :
    ∀ c ∈ rest.head?, p c = false := by
  intro c hc
  obtain ⟨token, htoken⟩ := h c hc
  exact hp c token htoken

/-- A run of one class of characters ends where a symbol follows it. -/
theorem Ends.takeWhile_append {p : Char → Bool} {t rest : Text} (h : Ends rest)
    (hp : ∀ c token, Token.symbol? c = some token → p c = false) (ht : ∀ c ∈ t, p c) :
    (t ++ rest).takeWhile p = t :=
  Text.takeWhile_append ht (h.not_of_mem_head? hp)

/-! ## Pieces of text -/

def inRange : Token → Bool
  | .dollar n => n < Text.countBound
  | _ => true

/-- The tokens of a piece of text, which cannot be read when one of its numbers of columns is too
large. -/
def Scans (t : Text) (l : List Token) : Prop :=
  ∀ rest, Ends rest →
    tokens? (t ++ rest) = if l.all inRange then (tokens? rest).map (l ++ ·) else none

theorem Scans.nil : Scans [] [] := by
  intro rest _
  simp

theorem Scans.tokens? {t : Text} {l : List Token} (h : Scans t l) :
    tokens? t = if l.all inRange then some l else none := by
  have hrest := h [] (by simp [Ends])
  simpa using hrest

theorem Scans.append {s t : Text} {l r : List Token} (hs : Scans s l) (ht : Scans t r)
    (hends : ∀ rest, Ends rest → Ends (t ++ rest)) : Scans (s ++ t) (l ++ r) := by
  intro rest hrest
  rw [List.append_assoc, hs _ (hends rest hrest), ht rest hrest, List.all_append]
  cases l.all inRange <;> cases r.all inRange <;> simp [Function.comp_def]

theorem Scans.symbol {c : Char} {token : Token} {t : Text} {l : List Token}
    (hc : Token.symbol? c = some token) (ht : Scans t l) : Scans (c :: t) (token :: l) := by
  intro rest hrest
  have htoken : inRange token = true := by
    unfold Token.symbol? at hc
    split at hc <;> cases hc <;> rfl
  rw [List.cons_append, tokens?_of_symbol hc, ht rest hrest, List.all_cons, htoken]
  cases l.all inRange <;> simp [Function.comp_def]

theorem Scans.append_symbol {c : Char} {token : Token} {s t : Text} {l r : List Token}
    (hs : Scans s l) (hc : Token.symbol? c = some token) (ht : Scans t r) :
    Scans (s ++ c :: t) (l ++ token :: r) := by
  refine hs.append (.symbol hc ht) fun rest _ => ?_
  rintro _ ⟨⟩
  exact ⟨token, hc⟩

theorem Scans.of_scan {c : Char} {t : Text} {token : Token} (hwhite : Text.isWhite c = false)
    (hrange : inRange token = true)
    (h : ∀ rest, Ends rest → Token.scan c (t ++ rest) = .ok (token, t.length)) :
    Scans (c :: t) [token] := by
  intro rest hrest
  rw [tokens?_of_scan_append hwhite (h rest hrest) rfl, List.all_cons, hrange]
  rfl

/-! ## Names and numbers -/

/-- A text that is one name. -/
def isName : Text → Bool
  | [] => false
  | c :: t => Token.isNameStart c && !Text.isWhite c && (Token.symbol? c).isNone &&
      c != '\'' && c != '"' && c != '$' && c != '.' && !c.isDigit && t.all Token.isNamePart

/-- A name ends where no more of a name follows. -/
theorem scan_name {c : Char} {t rest : Text} (h : isName (c :: t))
    (hrest : ∀ d ∈ rest.head?, Token.isNamePart d = false) :
    Token.scan c (t ++ rest) = .ok (.name (c :: t), t.length) := by
  simp only [isName, Bool.and_eq_true, Bool.not_eq_true', Option.isNone_iff_eq_none, bne_iff_ne,
    and_assoc] at h
  obtain ⟨hstart, -, hsymbol, hquote, hquotes, hdollar, hpoint, hdigit, hpart⟩ := h
  have hrun : (t ++ rest).takeWhile Token.isNamePart = t :=
    Text.takeWhile_append (List.all_eq_true.mp hpart) hrest
  simp only [Token.scan, hsymbol, hquote, hquotes, hdollar, hpoint, hdigit, hstart, hrun, or_self,
    if_false, if_true, Bool.false_eq_true]

theorem isWhite_of_isName {c : Char} {t : Text} (h : isName (c :: t)) : Text.isWhite c = false := by
  simp only [isName, Bool.and_eq_true, Bool.not_eq_true', and_assoc] at h
  exact h.2.1

theorem Scans.name {t : Text} (h : isName t) : Scans t [.name t] := by
  cases t with
  | nil => cases h
  | cons c t =>
    exact .of_scan (isWhite_of_isName h) rfl fun rest hrest =>
      scan_name h (hrest.not_of_mem_head? fun _ _ => isNamePart_of_symbol)

theorem symbol?_of_isDigit {c : Char} (h : c.isDigit) : Token.symbol? c = none := by
  unfold Token.symbol?
  split <;> first | rfl | cases h

theorem scan_dollar (t : Text) : Token.scan '$' t =
    match Text.toNatBelow? Text.countBound (t.takeWhile Char.isDigit) with
    | some n => .ok (.dollar n, (t.takeWhile Char.isDigit).length)
    | none => .error .missingColumnNumber := rfl

theorem Scans.dollar (n : ℕ) : Scans ('$' :: Text.ofNat n) [.dollar n] := by
  intro rest hrest
  have hrun : (Text.ofNat n ++ rest).takeWhile Char.isDigit = Text.ofNat n :=
    hrest.takeWhile_append (fun _ _ => isDigit_of_symbol) fun _ => Number.isDigit_of_mem_ofNat
  have hscan := scan_dollar (Text.ofNat n ++ rest)
  rw [hrun, Number.toNatBelow?_ofNat] at hscan
  rw [List.all_cons, List.all_nil, Bool.and_true, inRange]
  by_cases h : n < Text.countBound
  · rw [if_pos h] at hscan
    rw [tokens?_of_scan_append rfl hscan rfl, if_pos (decide_eq_true h)]
    rfl
  · rw [if_neg h] at hscan
    rw [List.cons_append, tokens?_of_problem rfl hscan, if_neg (by simpa using h)]

theorem Ends.numeral {rest : Text} (h : Ends rest) : Numeral.Ends rest := by
  intro c hc
  obtain ⟨token, htoken⟩ := h c hc
  exact ⟨isDigit_of_symbol htoken, symbol_ne htoken⟩

/-- A numeral is one token where no more of a numeral follows. -/
theorem scan_number {n : Numeral} {x : Float} {c : Char} {t rest : Text} (h : n.WrittenAs (c :: t))
    (hx : n.value? = some x) (hc : c.isDigit ∨ c = '.') (hrest : Numeral.Ends rest) :
    Token.scan c (t ++ rest) = .ok (.number x, t.length) := by
  have hscan := Numeral.scan_of_writtenAs h hrest
  have hsymbol : Token.symbol? c = none := by
    rcases hc with hc | rfl
    · exact symbol?_of_isDigit hc
    · rfl
  have hquote : ¬ (c = '\'' ∨ c = '"') := by
    rintro (rfl | rfl) <;> simp at hc
  have hdollar : c ≠ '$' := by
    rintro rfl
    simp at hc
  unfold Token.scan
  rw [hsymbol]
  dsimp only
  rw [if_neg hquote, if_neg hdollar, if_pos hc, ← List.cons_append, hscan]
  dsimp only
  rw [hx]
  rfl

theorem Scans.number {whole fraction : Text} {x : Float} (h : Number.IsDecimal whole fraction)
    (hx : Numeral.value? ⟨whole, fraction, 0⟩ = some x) :
    Scans (whole ++ Number.pointed fraction) [.number x] := by
  have hwritten : Numeral.WrittenAs ⟨whole, fraction, 0⟩ (whole ++ Number.pointed fraction) := by
    simpa using h.writtenAs .none
  cases whole with
  | nil => exact absurd rfl h.wholeNe
  | cons c whole =>
    have hc : c.isDigit := h.wholeDigits c (by simp)
    exact .of_scan (Text.isWhite_of_isDigit hc) rfl fun rest hrest =>
      scan_number hwritten hx (.inl hc) hrest.numeral

end Rollup.Formula
