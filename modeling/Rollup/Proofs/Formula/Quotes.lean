import Rollup.Proofs.Formula.Words

/-! # Quotes in formulas

The reader of tokens goes through the quotes of a text as the splitters do: a token is a whole quoted
name or has no quote in it. So a text that closes its quotes has no unterminated name.
-/

namespace Rollup

/-! ## Open quotes -/

namespace Text

variable {s t : Text} {c : Char}

theorem isQuote_of_isWhite (h : isWhite c) : isQuote c = false := by
  rw [← Bool.not_eq_true]
  intro hquote
  rw [isWhite_of_isQuote hquote] at h
  cases h

theorem isQuote_of_mem_foldl {quote : Option Char} (h : ∀ q ∈ quote, isQuote q) (t : Text) :
    ∀ q ∈ t.foldl quoteAfter quote, isQuote q := by
  induction t generalizing quote with
  | nil => exact h
  | cons c t ih =>
    apply ih
    intro q hq
    unfold quoteAfter at hq
    split at hq
    case h_1 q' =>
      split at hq
      · cases hq
      · exact h q hq
    case h_2 =>
      split at hq
      case isTrue hc =>
        cases hq
        exact hc
      case isFalse => cases hq

theorem quoteAfter_of_not_isQuote {quote : Option Char} (h : ∀ q ∈ quote, isQuote q)
    (hc : isQuote c = false) : quoteAfter quote c = quote := by
  cases quote with
  | none => simp [quoteAfter, hc]
  | some q =>
    have hne : c ≠ q := by
      rintro rfl
      rw [h c rfl] at hc
      cases hc
    simp [quoteAfter, hne]

/-- Plain characters leave a quote open or closed as it was. -/
theorem openQuote_append_plain (ht : ∀ c ∈ t, isQuote c = false) :
    openQuote (s ++ t) = openQuote s := by
  rw [openQuote, List.foldl_append]
  apply foldl_of_still
  intro c hc
  exact quoteAfter_of_not_isQuote (isQuote_of_mem_foldl (by simp) s) (ht c hc)

theorem openQuote_append (h : openQuote s = none) (t : Text) : openQuote (s ++ t) = openQuote t := by
  rw [openQuote, List.foldl_append]
  exact congrArg (t.foldl quoteAfter) h

theorem openQuote_plain (ht : ∀ c ∈ t, isQuote c = false) : openQuote t = none :=
  openQuote_append_plain (s := []) ht

theorem openQuote_trim (h : openQuote t = none) : openQuote (trim t) = none := by
  obtain ⟨before, after, hbefore, hafter, ht⟩ := exists_eq_trim t
  have hplain {b : Text} (hb : isBlank b) : ∀ c ∈ b, isQuote c = false := fun c hc =>
    isQuote_of_isWhite (isBlank_iff.mp hb c hc)
  rw [ht, openQuote_append_plain (hplain hafter),
    openQuote_append (openQuote_plain (hplain hbefore))] at h
  exact h

end Text

/-! ## The characters of a token -/

namespace Numeral

/-- The characters that a numeral may have. -/
def isPart (c : Char) : Bool := c.isDigit || ['.', 'e', 'E', '+', '-'].contains c

theorem isPart_of_mem {n : Numeral} {t : Text} (h : n.WrittenAs t) {c : Char} (hc : c ∈ t) :
    isPart c := by
  cases h with
  | @parts whole fraction point power exponent hwhole hfraction hexponent =>
    rcases List.mem_append.mp hc with hc | hc
    · simp [isPart, hwhole c hc]
    rcases List.mem_append.mp hc with hc | hc
    · cases hfraction with
      | none => cases hc
      | point hdigits =>
        rcases List.mem_cons.mp hc with rfl | hc
        · rfl
        · simp [isPart, hdigits c hc]
    · cases hexponent with
      | none => cases hc
      | @power letter mark digits sign hletter hsign hne hdigits =>
        have hmark : ∀ c ∈ mark, isPart c := by
          rcases mem_exponentSigns.mp hsign with ⟨rfl, -⟩ | ⟨rfl, -⟩ | ⟨rfl, -⟩ <;> simp [isPart]
        rcases List.mem_cons.mp hc with rfl | hc
        · rcases hletter with rfl | rfl <;> rfl
        · rcases List.mem_append.mp hc with hc | hc
          · exact hmark c hc
          · simp [isPart, hdigits c hc]

end Numeral

namespace Token

variable {c : Char} {t : Text} {token : Token} {used : ℕ}

/-- No character of a class is a quote, if neither quote is in it. -/
theorem not_isQuote_of_class {p : Char → Bool} (hsingle : p '\'' = false) (hdouble : p '"' = false)
    (h : p c) : Text.isQuote c = false := by
  rw [← Bool.not_eq_true]
  intro hquote
  simp only [Text.isQuote, Bool.or_eq_true, decide_eq_true_eq] at hquote
  rcases hquote with rfl | rfl
  · rw [hsingle] at h
    cases h
  · rw [hdouble] at h
    cases h

/-- The quotes of a word are those around a quoted name. -/
theorem WrittenAs.openQuote_eq_none {word : Text} (h : token.WrittenAs word) :
    Text.openQuote word = none := by
  cases h with
  | @symbol c token hsymbol =>
    have hc : Text.isQuote c = false :=
      not_isQuote_of_class (p := fun c => (symbol? c).isSome) rfl rfl (by simp [hsymbol])
    exact Text.openQuote_plain (by simp [hc])
  | quoted hquote hname => exact Text.openQuote_quoted hquote hname
  | @dollar digits n hn =>
    have hplain : ∀ c ∈ digits, Text.isQuote c = false := fun c hc =>
      not_isQuote_of_class rfl rfl (isDigit_of_toNatBelow? hn c hc)
    exact Text.openQuote_plain (List.forall_mem_cons.mpr ⟨rfl, hplain⟩)
  | number hn hx =>
    have hplain : ∀ c ∈ word, Text.isQuote c = false := fun c hc =>
      not_isQuote_of_class rfl rfl (Numeral.isPart_of_mem hn hc)
    exact Text.openQuote_plain hplain
  | name hname =>
    cases word with
    | nil => rfl
    | cons c t =>
      simp only [Formula.isName, Bool.and_eq_true, bne_iff_ne, List.all_eq_true] at hname
      have hplain : ∀ d ∈ t, Text.isQuote d = false := fun d hd =>
        not_isQuote_of_class rfl rfl (hname.2 d hd)
      have hc : Text.isQuote c = false := by simp [Text.isQuote, hname]
      exact Text.openQuote_plain (List.forall_mem_cons.mpr ⟨hc, hplain⟩)

/-- A name is unterminated when its quote does not stand in the rest of the text. -/
theorem of_scan_unterminated (h : scan c t = .error .unterminatedName) :
    Text.isQuote c ∧ c ∉ t := by
  unfold scan at h
  split at h
  · cases h
  · dsimp only at h
    split at h
    case isTrue hquote =>
      split at h
      case isTrue hlength =>
        have hall : t.takeWhile (· != c) = t := (List.takeWhile_prefix _).eq_of_length hlength
        refine ⟨by simpa [Text.isQuote] using hquote, ?_⟩
        rw [← hall]
        exact Text.not_mem_takeWhile_ne c t
      case isFalse => cases h
    case isFalse =>
      split at h
      · split at h <;> cases h
      · split at h
        · split at h <;> cases h
        · split at h <;> cases h

end Token

/-! ## Texts without an open quote -/

open Text

theorem Text.openQuote_of_not_mem {c : Char} {t : Text} (hquote : isQuote c) (h : c ∉ t) :
    openQuote (c :: t) = some c := by
  have hopen : quoteAfter none c = some c := if_pos hquote
  rw [openQuote, List.foldl_cons, hopen]
  exact foldl_of_still fun _ => quoteAfter_of_mem h

/-- The tokens of a text take every quote together with the one that closes it. -/
theorem Token.readFrom_ne_unterminated {t : Text} (h : openQuote t = none) (offset start : ℕ) :
    readFrom offset t ≠ .error ⟨.unterminatedName, start⟩ := by
  intro hread
  fun_induction readFrom offset t with
  | case1 => cases hread
  | case2 offset c t hwhite ih =>
    apply ih _ hread
    rw [← openQuote_append (s := [c]) (openQuote_plain (by simp [isQuote_of_isWhite hwhite])) t]
    exact h
  | case3 offset c t _ problem hscan =>
    cases hread
    obtain ⟨hquote, hmem⟩ := of_scan_unterminated hscan
    rw [openQuote_of_not_mem hquote hmem] at h
    cases h
  | case4 offset c t hwhite token used hscan ih =>
    refine ih ?_ (eq_error_of_map_eq_error hread)
    have hclosed := (writtenAs_of_scan (by simpa using hwhite) hscan).openQuote_eq_none
    rw [← openQuote_append hclosed, List.cons_append, List.take_append_drop]
    exact h

end Rollup
