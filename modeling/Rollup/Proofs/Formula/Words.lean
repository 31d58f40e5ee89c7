import Rollup.Proofs.Column.Quoted
import Rollup.Proofs.Formula.Written
import Rollup.Proofs.Number.Numeral

/-! # The words of a formula

Every token is written as a word, and a text that has tokens is their words, with white space before
the first one and after any of them. A word gives its token wherever it stands, as long as the text
after it does not go on with a name.
-/

namespace Rollup

open Formula
open Operation (EndsWord)

/-- The piece of a text between two offsets, which stand between characters. -/
def Text.IsSlice (t : Text) (start stop : ℕ) (piece : Text) : Prop :=
  ∃ before after, t = before ++ piece ++ after ∧ Text.byteSize before = start ∧
    Text.byteSize (before ++ piece) = stop

namespace Token

/-! ## Words -/

inductive WrittenAs : Token → Text → Prop
  | symbol {c : Char} {token : Token} (h : symbol? c = some token) : WrittenAs token [c]
  | quoted {quote : Char} {name : Text} (hquote : Text.isQuote quote) (hname : quote ∉ name) :
      WrittenAs (.quoted name) (Text.quoted quote name)
  | dollar {digits : Text} {n : ℕ} (h : Text.toNatBelow? Text.countBound digits = some n) :
      WrittenAs (.dollar n) ('$' :: digits)
  | number {n : Numeral} {x : Float} {word : Text} (h : n.WrittenAs word) (hx : n.value? = some x) :
      WrittenAs (.number x) word
  | name {word : Text} (h : isName word) : WrittenAs (.name word) word

theorem writtenAs_takeWhile_ne {c : Char} {t : Text} (hquote : c = '\'' ∨ c = '"')
    (hlength : (t.takeWhile (· != c)).length ≠ t.length) :
    WrittenAs (.quoted (t.takeWhile (· != c)))
      (c :: t.take ((t.takeWhile (· != c)).length + 1)) := by
  have hword : c :: t.take ((t.takeWhile (· != c)).length + 1) =
      Text.quoted c (t.takeWhile (· != c)) := by
    obtain ⟨rest, hrest⟩ := Text.exists_eq_takeWhile_ne_append hlength
    generalize t.takeWhile (· != c) = name at hrest ⊢
    rw [hrest, List.take_length_add_append]
    rfl
  rw [hword]
  exact .quoted (by simpa [Text.isQuote] using hquote) (Text.not_mem_takeWhile_ne c t)

theorem writtenAs_numeral {c : Char} {t : Text} {x : Float}
    (hx : (Numeral.scan (c :: t)).1.value? = some x) :
    WrittenAs (.number x) (c :: t.take ((Numeral.scan (c :: t)).2 - 1)) := by
  have hwritten := Numeral.writtenAs_scan (c :: t)
  obtain ⟨d, u, hcons, -⟩ := Numeral.exists_cons_of_writtenAs hwritten hx
  cases hused : (Numeral.scan (c :: t)).2 with
  | zero => simp [hused] at hcons
  | succ n =>
    rw [hused] at hwritten
    exact .number hwritten hx

theorem writtenAs_name {c : Char} {t : Text} (hwhite : Text.isWhite c = false)
    (hsymbol : symbol? c = none) (hquote : ¬ (c = '\'' ∨ c = '"')) (hdollar : c ≠ '$')
    (hnumeral : ¬ (c.isDigit ∨ c = '.')) (hstart : isNameStart c) :
    WrittenAs (.name (c :: t.takeWhile isNamePart))
      (c :: t.take (t.takeWhile isNamePart).length) := by
  have hrun : ∀ d ∈ t.takeWhile isNamePart, isNamePart d := fun _ => List.mem_takeWhile_imp
  rw [Numeral.take_length_takeWhile]
  refine .name ?_
  simp_all [isName]

/-- What a scan takes is a word of its token. -/
theorem writtenAs_of_scan {c : Char} {t : Text} {token : Token} {used : ℕ}
    (hwhite : Text.isWhite c = false) (h : scan c t = .ok (token, used)) :
    token.WrittenAs (c :: t.take used) := by
  unfold scan at h
  split at h
  case h_1 hsymbol =>
    cases h
    exact .symbol hsymbol
  case h_2 hsymbol =>
    dsimp only at h
    split_ifs at h with hquote hlength hdollar hnumeral hstart
    · cases h
      exact writtenAs_takeWhile_ne hquote hlength
    · split at h
      case h_1 hn =>
        cases h
        rw [hdollar, Numeral.take_length_takeWhile]
        exact .dollar hn
      case h_2 => cases h
    · split at h
      case h_1 hx =>
        cases h
        exact writtenAs_numeral hx
      case h_2 => cases h
    · cases h
      exact writtenAs_name hwhite hsymbol hquote hdollar hnumeral hstart

/-! ## Words in a text -/

theorem isNamePart_of_isWhite {c : Char} (h : Text.isWhite c) : isNamePart c = false := by
  have hletter : Text.isAlphabetic c = false := by
    rw [← Bool.not_eq_true]
    intro hletter
    simp [Text.not_isWhite_of_isAlphabetic hletter] at h
  have hnumeric : Text.isNumeric c = false := by
    rw [← Bool.not_eq_true]
    intro hnumeric
    simp [Text.not_isWhite_of_isNumeric hnumeric] at h
  have hline : c ≠ '_' := by
    rintro rfl
    cases h
  have hpoint : c ≠ '.' := by
    rintro rfl
    cases h
  simp [isNamePart, hletter, hnumeric, hline, hpoint]

theorem endsWord_of_isBlank {t : Text} (h : Text.isBlank t) : EndsWord t := by
  intro c hc
  exact isNamePart_of_isWhite (Text.isBlank_iff.mp h c (List.mem_of_mem_head? hc))

theorem isNamePart_of_isDigit {c : Char} (h : c.isDigit) : isNamePart c := by
  simp only [Char.isDigit, Bool.and_eq_true, decide_eq_true_eq] at h
  have hlow : 48 ≤ c.toNat := UInt32.le_iff_toNat_le.mp h.1
  have hhigh : c.toNat ≤ 57 := UInt32.le_iff_toNat_le.mp h.2
  have hnumeric : Text.isNumeric c := by
    rw [Text.isNumeric, Text.Property.numericRanges, Text.inRanges, if_neg (by omega),
      if_pos (by omega)]
  simp [isNamePart, hnumeric]

theorem ends_of_endsWord {rest : Text} (h : EndsWord rest) : Numeral.Ends rest := by
  intro c hc
  have hpart := h c hc
  refine ⟨?_, ?_, ?_, ?_⟩
  · rw [← Bool.not_eq_true]
    intro hdigit
    simp [isNamePart_of_isDigit hdigit] at hpart
  all_goals
    rintro rfl
    cases hpart

theorem isDigit_of_toNatBelow? {t : Text} {bound n : ℕ} (h : Text.toNatBelow? bound t = some n) :
    ∀ c ∈ t, c.isDigit := by
  unfold Text.toNatBelow? at h
  split at h
  case isTrue hall => exact List.all_eq_true.mp hall.2.1
  case isFalse => cases h

/-- A word gives its token before anything that does not go on with a name. -/
theorem scan_of_writtenAs {token : Token} {word rest : Text} (h : token.WrittenAs word)
    (hrest : EndsWord rest) : ∃ c t, word = c :: t ∧ Text.isWhite c = false ∧
      scan c (t ++ rest) = .ok (token, t.length) := by
  cases h with
  | symbol h => exact ⟨_, [], rfl, isWhite_of_symbol h, scan_of_symbol h rest⟩
  | @quoted quote name hquote hname =>
    refine ⟨quote, name ++ [quote], rfl, isWhite_of_isQuote hquote, ?_⟩
    rw [List.append_assoc, List.singleton_append, scan_quoted hquote hname rest]
    simp
  | @dollar digits n h =>
    have hrun := Text.takeWhile_append (isDigit_of_toNatBelow? h) fun c hc =>
      (ends_of_endsWord hrest c hc).1
    refine ⟨'$', digits, rfl, rfl, ?_⟩
    rw [scan_dollar, hrun, h]
  | number h hx =>
    obtain ⟨c, t, rfl, hc⟩ := Numeral.exists_cons_of_writtenAs h hx
    refine ⟨c, t, rfl, ?_, scan_number h hx hc (ends_of_endsWord hrest)⟩
    rcases hc with hc | rfl
    · exact Text.isWhite_of_isDigit hc
    · rfl
  | @name word h =>
    cases word with
    | nil => cases h
    | cons c t => exact ⟨c, t, rfl, isWhite_of_isName h, scan_name h hrest⟩

/-- A word on its own has one token, also with white space after it. -/
theorem read_of_writtenAs {token : Token} {word blank : Text} (h : token.WrittenAs word)
    (hblank : Text.isBlank blank) : Token.read (word ++ blank) = .ok [⟨token, 0⟩] := by
  obtain ⟨c, t, rfl, hwhite, hscan⟩ := scan_of_writtenAs h (endsWord_of_isBlank hblank)
  have hrest : (t ++ blank).drop t.length = blank := List.drop_left
  refine readFrom_of_scan hwhite hscan ?_
  rw [List.append_eq, hrest]
  exact readFrom_of_isBlank hblank

/-! ## Texts as words -/

/-- The text from an offset on is the words of the tokens, with white space after them. -/
inductive Worded : ℕ → Text → Tokens → Prop
  | nil (offset : ℕ) : Worded offset [] []
  | cons {offset : ℕ} {token : Token} {word blank rest : Text} {ts : Tokens}
      (hword : token.WrittenAs word) (hblank : Text.isBlank blank)
      (hrest : Worded (offset + Text.byteSize (word ++ blank)) rest ts) :
      Worded offset (word ++ blank ++ rest) (⟨token, offset⟩ :: ts)

theorem worded_of_readFrom {offset : ℕ} {t : Text} {ts : Tokens} (h : readFrom offset t = .ok ts) :
    ∃ blank rest, t = blank ++ rest ∧ Text.isBlank blank ∧
      Worded (offset + Text.byteSize blank) rest ts := by
  fun_induction readFrom offset t generalizing ts with
  | case1 =>
    cases h
    exact ⟨[], [], rfl, rfl, .nil _⟩
  | case2 offset c t hwhite ih =>
    obtain ⟨blank, rest, rfl, hblank, hrest⟩ := ih h
    refine ⟨c :: blank, rest, rfl, by simpa [Text.isBlank, hwhite] using hblank, ?_⟩
    rw [Text.byteSize_cons, ← Nat.add_assoc]
    exact hrest
  | case3 => cases h
  | case4 offset c t hwhite token used hscan ih =>
    obtain ⟨us, hus, rfl⟩ := exists_of_map_eq_ok h
    obtain ⟨blank, rest, hdrop, hblank, hrest⟩ := ih hus
    have ht : c :: t = c :: t.take used ++ blank ++ rest := by
      rw [List.append_assoc, ← hdrop, List.cons_append, List.take_append_drop]
    rw [Nat.add_assoc, ← Text.byteSize_append] at hrest
    refine ⟨[], c :: t, rfl, rfl, ?_⟩
    rw [ht]
    exact .cons (writtenAs_of_scan (by simpa using hwhite) hscan) hblank hrest

section Worded

variable {offset : ℕ} {t : Text} {ts : Tokens}

theorem WrittenAs.byteSize_pos {token : Token} {word : Text} (h : token.WrittenAs word) :
    0 < Text.byteSize word := by
  have hend : EndsWord [] := by simp [EndsWord]
  obtain ⟨c, t, rfl, -⟩ := scan_of_writtenAs h hend
  have hc := c.utf8Size_pos
  simp
  omega

theorem Worded.nextOffset_eq (h : Worded offset t ts) :
    nextOffset (offset + Text.byteSize t) ts = offset := by
  cases h <;> rfl

theorem Worded.le_offset (h : Worded offset t ts) : ∀ token ∈ ts, offset ≤ token.offset := by
  induction h with
  | nil => simp
  | cons hword hblank hrest ih =>
    refine List.forall_mem_cons.mpr ⟨Nat.le_refl _, fun token htoken => ?_⟩
    exact (Nat.le_add_right _ _).trans (ih token htoken)

theorem Worded.pairwise_offset (h : Worded offset t ts) :
    ts.Pairwise fun a b => a.offset < b.offset := by
  induction h with
  | nil => exact .nil
  | cons hword hblank hrest ih =>
    refine .cons (fun token htoken => ?_) ih
    have hle := hrest.le_offset token htoken
    have hpos := hword.byteSize_pos
    simp at hle ⊢
    omega

/-- The text from one token to the next is a word of the token, with white space after it. -/
theorem Worded.exists_slice (h : Worded offset t ts) {before after : Tokens} {token : PlacedToken}
    (hts : ts = before ++ token :: after) : ∃ front word blank back,
      t = front ++ (word ++ blank) ++ back ∧ offset + Text.byteSize front = token.offset ∧
      offset + Text.byteSize (front ++ (word ++ blank)) =
        nextOffset (offset + Text.byteSize t) after ∧
      token.token.WrittenAs word ∧ Text.isBlank blank := by
  induction h generalizing before with
  | nil => simp at hts
  | @cons offset _ word blank rest ts hword hblank hrest ih =>
    have hsize : offset + Text.byteSize (word ++ blank ++ rest) =
        offset + Text.byteSize (word ++ blank) + Text.byteSize rest := by
      rw [Text.byteSize_append (word ++ blank) rest, Nat.add_assoc]
    rw [hsize]
    cases before with
    | nil =>
      obtain ⟨rfl, rfl⟩ := List.cons.inj hts
      exact ⟨[], word, blank, rest, rfl, rfl, hrest.nextOffset_eq.symm, hword, hblank⟩
    | cons first before =>
      obtain ⟨front, word', blank', back, rfl, hstart, hstop, hword', hblank'⟩ :=
        ih (List.cons.inj hts).2
      refine ⟨word ++ blank ++ front, word', blank', back, by simp, ?_, ?_, hword', hblank'⟩
      · rw [Text.byteSize_append (word ++ blank) front, ← Nat.add_assoc]
        exact hstart
      · rw [← hstop, List.append_assoc, Text.byteSize_append (word ++ blank), ← Nat.add_assoc]

end Worded

/-- A text that has tokens is cut into them: each starts after the one before it, and the piece of
text up to the next one is a word of the token, with white space after it. -/
theorem read_slices {t : Text} {ts : Tokens} (h : Token.read t = .ok ts) :
    ts.Pairwise (fun a b => a.offset < b.offset) ∧
    (∃ blank, t.IsSlice 0 (nextOffset (Text.byteSize t) ts) blank ∧ Text.isBlank blank) ∧
    ∀ before token after, ts = before ++ token :: after → ∃ word blank,
      t.IsSlice token.offset (nextOffset (Text.byteSize t) after) (word ++ blank) ∧
      token.token.WrittenAs word ∧ Text.isBlank blank ∧
      Token.read (word ++ blank) = .ok [⟨token.token, 0⟩] := by
  obtain ⟨lead, rest, rfl, hlead, hworded⟩ := worded_of_readFrom h
  have hsize : Text.byteSize (lead ++ rest) = 0 + Text.byteSize lead + Text.byteSize rest := by
    rw [Text.byteSize_append, Nat.zero_add]
  refine ⟨hworded.pairwise_offset, ⟨lead, ⟨[], rest, rfl, rfl, ?_⟩, hlead⟩, ?_⟩
  · rw [hsize, hworded.nextOffset_eq, Nat.zero_add, List.nil_append]
  · intro before token after hts
    obtain ⟨front, word, blank, back, rfl, hstart, hstop, hword, hblank⟩ := hworded.exists_slice hts
    refine ⟨word, blank, ⟨lead ++ front, back, by simp, ?_, ?_⟩, hword, hblank,
      read_of_writtenAs hword hblank⟩
    · rw [Text.byteSize_append, ← hstart, Nat.zero_add]
    · rw [hsize, ← hstop, List.append_assoc, Text.byteSize_append lead, Nat.zero_add]

/-- Numerals that touch, and a quoted name with a character of two bytes. -/
theorem read_slices_touching :
    Token.read " 1e+1.2.3'é' ".toList =
      .ok [⟨.number 1e1, 1⟩, ⟨.number 0.2, 5⟩, ⟨.number 0.3, 7⟩, ⟨.quoted ['é'], 9⟩] ∧
    ∃ word blank, Text.IsSlice " 1e+1.2.3'é' ".toList 7 9 (word ++ blank) ∧
      Token.WrittenAs (.number 0.3) word ∧ Text.isBlank blank ∧
      Token.read (word ++ blank) = .ok [⟨.number 0.3, 0⟩] := by
  have hread : Token.read " 1e+1.2.3'é' ".toList =
      .ok [⟨.number 1e1, 1⟩, ⟨.number 0.2, 5⟩, ⟨.number 0.3, 7⟩, ⟨.quoted ['é'], 9⟩] := by
    have hten : scan '1' "e+1.2.3'é' ".toList = .ok (.number 1e1, 3) := rfl
    have htwo : scan '.' "2.3'é' ".toList = .ok (.number 0.2, 1) := rfl
    have hthree : scan '.' "3'é' ".toList = .ok (.number 0.3, 1) := rfl
    have hname : scan '\'' "é' ".toList = .ok (.quoted ['é'], 2) := rfl
    refine (readFrom_of_isWhite rfl).trans (readFrom_of_scan rfl hten ?_)
    refine readFrom_of_scan rfl htwo (readFrom_of_scan rfl hthree ?_)
    exact readFrom_of_scan rfl hname (readFrom_of_isBlank rfl)
  obtain ⟨-, -, hslices⟩ := read_slices hread
  exact ⟨hread, hslices [⟨.number 1e1, 1⟩, ⟨.number 0.2, 5⟩] _ [⟨.quoted ['é'], 9⟩] rfl⟩

/-! ## Numbers -/

theorem eq_nil_of_isBlank {t : Text} (h : Text.isBlank t)
    (hwhite : ∀ c ∈ t, Text.isWhite c = false) : t = [] := by
  rw [List.eq_nil_iff_forall_not_mem]
  intro c hc
  have hblank := Text.isBlank_iff.mp h c hc
  simp [hwhite c hc] at hblank

theorem read_eq_singleton_iff {t : Text} {token : Token} {offset : ℕ}
    (hwhite : ∀ c ∈ t, Text.isWhite c = false) :
    Token.read t = .ok [⟨token, offset⟩] ↔ offset = 0 ∧ token.WrittenAs t := by
  constructor
  · intro h
    obtain ⟨lead, rest, rfl, hlead, hworded⟩ := worded_of_readFrom h
    obtain rfl := eq_nil_of_isBlank hlead fun c hc => hwhite c (by simp [hc])
    cases hworded with
    | @cons _ _ word blank _ _ hword hblank hrest =>
      cases hrest
      obtain rfl := eq_nil_of_isBlank hblank fun c hc => hwhite c (by simp [hc])
      exact ⟨rfl, by simpa using hword⟩
  · rintro ⟨rfl, h⟩
    have hblank : Text.isBlank [] := rfl
    simpa using read_of_writtenAs h hblank

theorem writtenAs_number_iff {t : Text} {x : Float} :
    WrittenAs (.number x) t ↔ Numeral.read? t = some x := by
  rw [Numeral.read?_eq_some_iff]
  constructor
  · intro h
    cases h with
    | symbol h =>
      unfold symbol? at h
      split at h <;> cases h
    | number h hx => exact ⟨_, h, hx⟩
  · rintro ⟨n, h, hx⟩
    exact .number h hx

/-- A formula reads as one number just when its text is that number without a sign, and the texts
of numbers are those of a regular expression. -/
theorem read_number_iff {t : Text} (hwhite : ∀ c ∈ t, Text.isWhite c = false) (x : Float) :
    ((∃ offset, Token.read t = .ok [⟨.number x, offset⟩]) ↔
      (∀ c ∈ t.head?, c ≠ '+' ∧ c ≠ '-') ∧ Number.read? t = some x) ∧
    ((Number.read? t).isSome ↔ t ∈ Number.expression.matches') := by
  refine ⟨?_, Number.isSome_read?_iff⟩
  simp only [read_eq_singleton_iff hwhite, writtenAs_number_iff,
    Number.numeral_read?_eq_some_iff]
  simp

/-- An exponent right after the point belongs to the number, and a second point ends it. -/
theorem read_number_point :
    ((∀ c ∈ "1.e5".toList, Text.isWhite c = false) ∧
      ∃ offset, Token.read "1.e5".toList = .ok [⟨.number 1e5, offset⟩]) ∧
    (∀ c ∈ "1.e5.".toList, Text.isWhite c = false) ∧
      ¬ ∃ offset, Token.read "1.e5.".toList = .ok [⟨.number 1e5, offset⟩] := by
  have hpoint : ∀ c ∈ "1.e5.".toList, Text.isWhite c = false := by
    have hall : ("1.e5.".toList.all fun c => !Text.isWhite c) = true := rfl
    simpa using hall
  have hwhole : ∀ c ∈ "1.e5".toList, Text.isWhite c = false :=
    fun c hc => hpoint c (List.mem_append_left ['.'] hc)
  refine ⟨⟨hwhole, (read_number_iff hwhole 1e5).1.mpr ⟨by simp, rfl⟩⟩, hpoint, ?_⟩
  rw [(read_number_iff hpoint 1e5).1]
  rintro ⟨-, h⟩
  have hnone : Number.read? "1.e5.".toList = none := rfl
  cases hnone.symm.trans h

end Token

end Rollup
