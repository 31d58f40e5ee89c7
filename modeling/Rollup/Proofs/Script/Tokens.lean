import Rollup.Filter.Reference
import Rollup.Proofs.Double.Shortest
import Rollup.Proofs.Text.Cut
import Rollup.Script.Term

/-! # The tokens of an access

Every token is read from the text at its offset. So where the row is named at the offset of an
access, the tokens of its index follow.
-/

namespace Rollup.Script

open Rollup.Filter (access)
open Text (byteSize)

/-! ## One token after another -/

theorem exists_of_readTokens {afterOperand : Bool} {offset : ℕ} {c : Char} {t : Text} {ts : Tokens}
    (h : readTokens afterOperand offset (c :: t) = .ok ts) :
    (isBlank c ∧ readTokens afterOperand (offset + c.utf8Size) t = .ok ts) ∨
      ∃ token used rest, scan afterOperand c t = .ok (token, used) ∧
        readTokens token.endsOperand (offset + byteSize (c :: t.take used)) (t.drop used) =
          .ok rest ∧
        ts = ⟨token, offset⟩ :: rest := by
  rw [readTokens] at h
  split at h
  case isTrue hblank => exact .inl ⟨hblank, h⟩
  case isFalse =>
    split at h
    case h_1 => cases h
    case h_2 token used hscan =>
      obtain ⟨rest, hrest, h⟩ := exists_of_map_eq_ok h
      exact .inr ⟨token, used, rest, hscan, hrest, h.symm⟩

theorem exists_of_readTokens_of_scan {afterOperand : Bool} {offset : ℕ} {c : Char} {t : Text}
    {ts : Tokens} {token : Token} {used : ℕ} (hblank : isBlank c = false)
    (hscan : scan afterOperand c t = .ok (token, used))
    (h : readTokens afterOperand offset (c :: t) = .ok ts) :
    ∃ offset' rest, readTokens token.endsOperand offset' (t.drop used) = .ok rest ∧
      ts = ⟨token, offset⟩ :: rest := by
  obtain ⟨hblank', -⟩ | ⟨token', used', rest, hscan', hrest, rfl⟩ := exists_of_readTokens h
  · rw [hblank] at hblank'
    cases hblank'
  · cases hscan.symm.trans hscan'
    exact ⟨_, rest, hrest, rfl⟩

/-- A token and those after it are read from the text at its offset. -/
theorem exists_of_suffix {afterOperand : Bool} {offset : ℕ} {t : Text} {ts us : Tokens}
    {token : PlacedToken} (h : readTokens afterOperand offset t = .ok ts)
    (hsuffix : token :: us <:+ ts) :
    ∃ before after afterOperand', t = before ++ after ∧ token.offset = offset + byteSize before ∧
      readTokens afterOperand' token.offset after = .ok (token :: us) := by
  match t with
  | [] =>
    rw [readTokens] at h
    cases h
    cases List.suffix_nil.mp hsuffix
  | c :: t =>
    obtain ⟨-, hlater⟩ | ⟨first, used, rest, -, hlater, rfl⟩ := exists_of_readTokens h
    · obtain ⟨before, after, operand, rfl, hoffset, hread⟩ := exists_of_suffix hlater hsuffix
      refine ⟨c :: before, after, operand, rfl, ?_, hread⟩
      rw [hoffset, Text.byteSize_cons, Nat.add_assoc]
    · rcases List.suffix_cons_iff.mp hsuffix with heq | hsuffix
      · obtain ⟨rfl, rfl⟩ := List.cons_eq_cons.mp heq
        exact ⟨[], c :: t, afterOperand, rfl, rfl, h⟩
      · obtain ⟨before, after, operand, ht, hoffset, hread⟩ := exists_of_suffix hlater hsuffix
        refine ⟨c :: t.take used ++ before, after, operand, ?_, ?_, hread⟩
        · rw [List.append_assoc, ← ht, List.cons_append, List.take_append_drop]
        · rw [hoffset, Text.byteSize_append, Nat.add_assoc]
termination_by t.length
decreasing_by
  all_goals simp only [List.length_cons, List.length_drop]; omega

/-! ## Indices -/

/-- The tokens start with the index of an access. One that is no word is a double. -/
inductive StartsIndex (i : ℕ) : Tokens → Prop
  | int (o₁ o₂ o₃ : ℕ) (ts : Tokens) :
      StartsIndex i (⟨.symbol .lbracket, o₁⟩ :: ⟨.int i, o₂⟩ :: ⟨.symbol .rbracket, o₃⟩ :: ts)
  | float (x : Float) (o₁ o₂ o₃ : ℕ) (ts : Tokens) :
      StartsIndex i (⟨.symbol .lbracket, o₁⟩ :: ⟨.float x, o₂⟩ :: ⟨.symbol .rbracket, o₃⟩ :: ts)

theorem readNumber?_ofNat {i : ℕ} {token : Token}
    (h : readNumber? false (Text.ofNat i) = some token) :
    token = .int i ∨ ∃ x, token = .float x := by
  have hdigits : (Text.ofNat i).filter (· != '_') = Text.ofNat i := by
    rw [List.filter_eq_self]
    intro c hc
    have hdigit := Number.isDigit_of_mem_ofNat hc
    simp only [bne_iff_ne, ne_eq]
    rintro rfl
    cases hdigit
  unfold readNumber? at h
  dsimp only at h
  rw [hdigits, Number.toNatBelow?_ofNat] at h
  split at h
  case h_1 n hn =>
    cases h
    obtain ⟨m, hm, hn⟩ := Option.bind_eq_some_iff.mp hn
    split at hm <;> cases hm
    have hword : Word.ofInt? i = some n := hn
    unfold Word.ofInt? at hword
    split at hword <;> cases hword
    exact .inl rfl
  case h_2 =>
    obtain ⟨x, -, rfl⟩ := Option.map_eq_some_iff.mp h
    exact .inr ⟨x, rfl⟩

theorem scanNumber_ofNat (i : ℕ) (after : Text) :
    scanNumber (Text.ofNat i ++ ']' :: after) = Text.ofNat i := by
  have hwhole : (Text.ofNat i ++ ']' :: after).takeWhile isDigitPart = Text.ofNat i := by
    apply Text.takeWhile_append
    · intro c hc
      rw [isDigitPart, Number.isDigit_of_mem_ofNat hc, Bool.true_or]
    · rintro c ⟨⟩
      rfl
  have hdecimals : scanDecimals (']' :: after) = [] := rfl
  have hpower : scanPower (']' :: after) = [] := by cases after <;> rfl
  unfold scanNumber
  dsimp only
  rw [hwhole, List.drop_left, hdecimals, List.append_nil, List.drop_left, hpower, List.append_nil]

theorem isBlank_of_isDigit {c : Char} (h : c.isDigit) : isBlank c = false := by
  rw [Bool.eq_false_iff]
  intro hblank
  simp only [isBlank, Char.isWhitespace, Bool.or_eq_true, decide_eq_true_eq] at hblank
  rcases hblank with ((((rfl | rfl) | rfl) | rfl) | rfl) <;> cases h

section

variable {i : ℕ} {afterOperand : Bool} {offset : ℕ} {before after : Text} {ts : Tokens}

theorem exists_of_readTokens_ofNat
    (h : readTokens afterOperand offset (Text.ofNat i ++ ']' :: after) = .ok ts) :
    ∃ token offset' rest, readNumber? false (Text.ofNat i) = some token ∧
      readTokens token.endsOperand offset' (']' :: after) = .ok rest ∧
      ts = ⟨token, offset⟩ :: rest := by
  have hnumber := scanNumber_ofNat i after
  obtain ⟨c, digits, hdigits⟩ := List.exists_cons_of_ne_nil (l := Text.ofNat i) Nat.toDigits_ne_nil
  have hc : c.isDigit := Number.isDigit_of_mem_ofNat (hdigits ▸ List.mem_cons_self)
  rw [hdigits, List.cons_append] at h hnumber
  rw [hdigits]
  obtain ⟨hblank, -⟩ | ⟨token, used, rest, hscan, hrest, rfl⟩ := exists_of_readTokens h
  · rw [isBlank_of_isDigit hc] at hblank
    cases hblank
  · unfold scan at hscan
    rw [if_pos hc, hnumber] at hscan
    dsimp only at hscan
    split at hscan <;> cases hscan
    case h_1 hread =>
      have hdrop : (digits ++ ']' :: after).drop ((c :: digits).length - 1) = ']' :: after :=
        List.drop_left
      rw [hdrop] at hrest
      exact ⟨token, _, rest, hread, hrest, rfl⟩

/-! ## Accesses -/

theorem exists_of_readTokens_access
    (h : readTokens afterOperand offset (access i ++ after) = .ok ts) :
    ∃ us, ts = ⟨.word rowName, offset⟩ :: us ∧ StartsIndex i us := by
  have htext : access i ++ after = 'r' :: 'o' :: 'w' :: '[' :: (Text.ofNat i ++ ']' :: after) := by
    simp [access]
  have hword (t : Text) : scan afterOperand 'r' ('o' :: 'w' :: '[' :: t) = .ok (.word rowName, 2) :=
    rfl
  have hopen (b : Bool) (t : Text) : scan b '[' t = .ok (.symbol .lbracket, 0) := rfl
  have hclose (b : Bool) (t : Text) : scan b ']' t = .ok (.symbol .rbracket, 0) := rfl
  rw [htext] at h
  obtain ⟨_, us, hopened, rfl⟩ := exists_of_readTokens_of_scan rfl (hword _) h
  obtain ⟨_, us, hindex, rfl⟩ := exists_of_readTokens_of_scan rfl (hopen _ _) hopened
  obtain ⟨token, _, us, htoken, hclosed, rfl⟩ := exists_of_readTokens_ofNat hindex
  obtain ⟨_, us, -, rfl⟩ := exists_of_readTokens_of_scan rfl (hclose _ _) hclosed
  refine ⟨_, rfl, ?_⟩
  obtain rfl | ⟨x, rfl⟩ := readNumber?_ofNat htoken
  · exact .int ..
  · exact .float x ..

/-- Wherever the row is named at an offset, the index of an access follows. -/
def IndexFollows (i offset : ℕ) (ts : Tokens) : Prop :=
  ∀ us, ⟨.word rowName, offset⟩ :: us <:+ ts → StartsIndex i us

theorem IndexFollows.tail {t : PlacedToken} (h : IndexFollows i offset (t :: ts)) :
    IndexFollows i offset ts := fun us hus => h us (hus.trans (List.suffix_cons t ts))

theorem indexFollows_of_readTokens
    (h : readTokens false 0 (before ++ access i ++ after) = .ok ts) :
    IndexFollows i (byteSize before) ts := by
  intro us hus
  obtain ⟨before', after', operand, htext, hoffset, hread⟩ := exists_of_suffix h hus
  rw [Nat.zero_add] at hoffset
  rw [List.append_assoc] at htext
  obtain ⟨-, rfl⟩ := Text.append_inj_of_byteSize hoffset htext
  obtain ⟨us', heq, hindex⟩ := exists_of_readTokens_access hread
  cases heq
  exact hindex

end

end Rollup.Script
