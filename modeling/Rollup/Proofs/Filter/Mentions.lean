import Rollup.Proofs.Filter.Pieces

/-! # The mentions in a script

The parts of a text outside literals make up the text, and a reference that a mention gives stands
in the script at the offset that it carries.
-/

namespace Rollup.Filter

open Text (byteSize quoted)

/-! ## One mention -/

theorem mention?_cases {before : Option Char} {c : Char} {t : Text} {m : Mention}
    (h : mention? before (c :: t) = some m) :
    (∃ name rest, c :: t = quoted '\'' name ++ rest ∧ '\'' ∉ name ∧ m = .quoted name) ∨
      (∃ digits rest, c :: t = '$' :: digits ++ rest ∧ digits ≠ [] ∧ (∀ d ∈ digits, d.isDigit) ∧
        m = .position digits) ∨
      ∃ name rest afterDot beforeCall, c :: t = c :: name ++ rest ∧ isNameStart c ∧
        (∀ d ∈ name, isNamePart d) ∧ m = .bare (c :: name) afterDot beforeCall := by
  simp only [mention?] at h
  split at h
  case isTrue hc =>
    split at h
    case isTrue => cases h
    case isFalse hlength =>
      obtain ⟨rest, hrest⟩ := Text.exists_eq_takeWhile_ne_append hlength
      refine .inl ⟨t.takeWhile (· != '\''), rest, ?_, Text.not_mem_takeWhile_ne _ _,
        (Option.some.inj h).symm⟩
      rw [hc, quoted, List.append_assoc, List.singleton_append, List.cons_append, ← hrest]
  case isFalse hc =>
    split at h
    case isTrue hdollar =>
      split at h
      case isTrue => cases h
      case isFalse hne =>
        refine .inr (.inl ⟨t.takeWhile Char.isDigit, t.dropWhile Char.isDigit, ?_, hne,
          fun d hd => List.mem_takeWhile_imp hd, (Option.some.inj h).symm⟩)
        rw [hdollar, List.cons_append, List.takeWhile_append_dropWhile]
    case isFalse hdollar =>
      split at h
      case isTrue hstart =>
        rw [Bool.and_eq_true] at hstart
        refine .inr (.inr ⟨t.takeWhile isNamePart, t.dropWhile isNamePart, _, _, ?_, hstart.1,
          fun d hd => List.mem_takeWhile_imp hd, (Option.some.inj h).symm⟩)
        rw [List.cons_append, List.takeWhile_append_dropWhile]
      case isFalse => cases h

theorem mention?_quoted {name rest : Text} (before : Option Char) (hname : '\'' ∉ name) :
    mention? before ('\'' :: (name ++ '\'' :: rest)) = some (.quoted name) := by
  have hinside : (name ++ '\'' :: rest).takeWhile (· != '\'') = name := by
    apply Text.takeWhile_ne_append hname
    simp
  simp [mention?, hinside]

theorem mention?_text {before : Option Char} {c : Char} {t : Text} {m : Mention}
    (h : mention? before (c :: t) = some m) : m.text ++ t.drop (m.text.length - 1) = c :: t := by
  suffices hprefix : ∃ u rest, m.text = c :: u ∧ t = u ++ rest by
    obtain ⟨u, rest, hu, rfl⟩ := hprefix
    rw [hu, List.length_cons, Nat.add_sub_cancel, List.drop_left, List.cons_append]
  rcases mention?_cases h with ⟨name, rest, ht, -, rfl⟩ | ⟨digits, rest, ht, -, -, rfl⟩ |
    ⟨name, rest, afterDot, beforeCall, ht, -, -, rfl⟩
  · obtain ⟨rfl, rfl⟩ := List.cons_eq_cons.mp ht
    exact ⟨name ++ ['\''], rest, rfl, by simp⟩
  · obtain ⟨rfl, rfl⟩ := List.cons_eq_cons.mp ht
    exact ⟨digits, rest, rfl, rfl⟩
  · obtain ⟨-, rfl⟩ := List.cons_eq_cons.mp ht
    exact ⟨name, rest, rfl, rfl⟩

/-! ## The references of a mention -/

theorem mem_dotSplits {t name rest : Text} (h : (name, rest) ∈ dotSplits t) :
    name ++ rest = t ∧ rest.head? = some '.' := by
  induction t generalizing name with
  | nil => cases h
  | cons c t ih =>
    have hlater (h : (name, rest) ∈ (dotSplits t).map fun p => (c :: p.1, p.2)) :
        name ++ rest = c :: t ∧ rest.head? = some '.' := by
      obtain ⟨⟨first, last⟩, hmem, heq⟩ := List.mem_map.mp h
      obtain ⟨rfl, rfl⟩ := Prod.mk.inj heq
      obtain ⟨rfl, hdot⟩ := ih hmem
      exact ⟨rfl, hdot⟩
    simp only [dotSplits] at h
    split at h
    case isTrue hc =>
      rcases List.mem_append.mp h with h | h
      · exact hlater h
      · obtain ⟨rfl, rfl⟩ := Prod.mk.inj (List.mem_singleton.mp h)
        exact ⟨rfl, by rw [hc]; rfl⟩
    case isFalse => exact hlater h

/-- What a reference may look like. -/
inductive Reference.WellFormed : Reference → Prop
  | quoted {name : Text} {offset : Nat} (h : '\'' ∉ name) : WellFormed ⟨name, true, offset⟩
  | position {digits : Text} {offset : Nat} (hne : digits ≠ []) (h : ∀ d ∈ digits, d.isDigit) :
      WellFormed ⟨'$' :: digits, false, offset⟩
  | bare {c : Char} {rest : Text} {offset : Nat} (hc : isNameStart c)
      (h : ∀ d ∈ rest, isNamePart d) : WellFormed ⟨c :: rest, false, offset⟩

/-- The reference as it is written. -/
def Reference.text (r : Reference) : Text := if r.quoted then Text.quoted '\'' r.name else r.name

/-- What may be looked up for a part, in turn. -/
def Part.references : Part → List Reference
  | .plain _ => []
  | .mention m offset => m.candidates.map fun (name, _) => ⟨name, m.isQuoted, offset⟩

theorem mem_candidates_bare {name first rest : Text} {afterDot beforeCall : Bool}
    (h : (first, rest) ∈ (Mention.bare name afterDot beforeCall).candidates) :
    first ++ rest = name ∧ ∀ c ∈ rest.head?, c = '.' := by
  simp only [Mention.candidates] at h
  split at h
  · cases h
  · rcases List.mem_append.mp h with h | h
    · split at h
      · cases h
      · obtain ⟨rfl, rfl⟩ := Prod.mk.inj (List.mem_singleton.mp h)
        simp
    · obtain ⟨rfl, hdot⟩ := mem_dotSplits h
      simp [hdot]

theorem of_mem_references {before : Option Char} {c : Char} {t : Text} {m : Mention}
    (h : mention? before (c :: t) = some m) {offset : Nat} {r : Reference}
    (hr : r ∈ (Part.mention m offset).references) :
    r.WellFormed ∧ r.offset = offset ∧ ∃ rest, m.text = r.text ++ rest := by
  simp only [Part.references, List.mem_map] at hr
  obtain ⟨⟨first, rest⟩, hmem, rfl⟩ := hr
  rcases mention?_cases h with ⟨name, -, -, hname, rfl⟩ | ⟨digits, -, -, hne, hdigits, rfl⟩ |
    ⟨name, -, afterDot, beforeCall, -, hc, hname, rfl⟩
  · obtain ⟨rfl, rfl⟩ := Prod.mk.inj (List.mem_singleton.mp hmem)
    exact ⟨.quoted hname, rfl, [], by simp [Reference.text, Mention.text, Mention.isQuoted, quoted]⟩
  · obtain ⟨rfl, rfl⟩ := Prod.mk.inj (List.mem_singleton.mp hmem)
    exact ⟨.position hne hdigits, rfl, [], by simp [Reference.text, Mention.text, Mention.isQuoted]⟩
  · obtain ⟨hsplit, hdot⟩ := mem_candidates_bare hmem
    refine ⟨?_, rfl, rest, by simp [Reference.text, Mention.text, Mention.isQuoted, hsplit]⟩
    cases first with
    | nil =>
      -- a name does not start with a dot
      rw [List.nil_append] at hsplit
      subst hsplit
      rw [hdot c rfl] at hc
      exact absurd hc (by decide)
    | cons d first =>
      obtain ⟨rfl, rfl⟩ := List.cons_eq_cons.mp hsplit
      exact .bare hc fun e he => hname e (List.mem_append_left _ he)

/-! ## All parts -/

section

variable {offset : Nat} {before : Option Char} {c : Char} {t : Text}

theorem parts_of_none (h : mention? before (c :: t) = none) :
    parts offset before (c :: t) = .plain c :: parts (offset + c.utf8Size) (some c) t := by
  rw [parts, h]

theorem parts_of_some {m : Mention} (h : mention? before (c :: t) = some m) :
    parts offset before (c :: t) =
      .mention m offset ::
        parts (offset + byteSize m.text) m.text.getLast? (t.drop (m.text.length - 1)) := by
  rw [parts, h]

end

def Part.text : Part → Text
  | .plain c => [c]
  | .mention m _ => m.text

theorem flatMap_text_parts (offset : Nat) (before : Option Char) (t : Text) :
    (parts offset before t).flatMap Part.text = t := by
  fun_induction parts offset before t with
  | case1 => rfl
  | case2 offset before c t hm ih => rw [List.flatMap_cons, ih]; rfl
  | case3 offset before c t m hm ih =>
    rw [List.flatMap_cons, ih]
    exact mention?_text hm

/-- A reference stands in the text, as many bytes after its start as the offsets differ. -/
theorem of_mem_references_parts {offset : Nat} {before : Option Char} {t : Text} {r : Reference}
    (hr : r ∈ (parts offset before t).flatMap Part.references) :
    r.WellFormed ∧ ∃ u v, t = u ++ r.text ++ v ∧ r.offset = offset + byteSize u := by
  fun_induction parts offset before t with
  | case1 => cases hr
  | case2 offset before c t hm ih =>
    rw [List.flatMap_cons] at hr
    obtain ⟨hwell, u, v, rfl, hoffset⟩ := ih hr
    refine ⟨hwell, c :: u, v, rfl, ?_⟩
    rw [hoffset, Text.byteSize_cons, Nat.add_assoc]
  | case3 offset before c t m hm ih =>
    have htext := mention?_text hm
    rw [List.flatMap_cons, List.mem_append] at hr
    rcases hr with hr | hr
    · obtain ⟨hwell, hoffset, rest, hrest⟩ := of_mem_references hm hr
      refine ⟨hwell, [], rest ++ t.drop (m.text.length - 1), ?_, hoffset⟩
      rw [← htext, hrest]
      simp
    · obtain ⟨hwell, u, v, hdrop, hoffset⟩ := ih hr
      refine ⟨hwell, m.text ++ u, v, ?_, ?_⟩
      · rw [← htext, hdrop]
        simp
      · rw [hoffset, Text.byteSize_append, Nat.add_assoc]

theorem pairwise_references_parts (offset : Nat) (before : Option Char) (t : Text) :
    ((parts offset before t).flatMap Part.references).Pairwise (·.offset ≤ ·.offset) := by
  fun_induction parts offset before t with
  | case1 => exact .nil
  | case2 offset before c t hm ih => simpa [Part.references] using ih
  | case3 offset before c t m hm ih =>
    -- the references of one mention share its offset, and all others come after it
    rw [List.flatMap_cons, List.pairwise_append]
    refine ⟨?_, ih, ?_⟩
    · refine List.pairwise_of_forall_mem_list ?_
      intro r hr s hs
      rw [(of_mem_references hm hr).2.1, (of_mem_references hm hs).2.1]
    · intro r hr s hs
      obtain ⟨-, u, v, -, hs⟩ := of_mem_references_parts hs
      rw [(of_mem_references hm hr).2.1]
      omega

/-! ## The references of a script -/

/-- What may be looked up for a piece, by the offsets in the script. -/
def Piece.references : Nat × Piece → List Reference
  | (offset, .outside t) => (parts offset none t).flatMap Part.references
  | (_, .literal _) => []

/-- What may be looked up for the pieces of a script, from left to right. -/
def references (pieces : List Piece) : List Reference :=
  (placed 0 pieces).flatMap Piece.references

/-- The reference is written in a piece outside literals, at its offset in the script. -/
def Reference.StandsIn (r : Reference) (pieces : List Piece) : Prop :=
  ∃ before t after u v, pieces = before ++ .outside t :: after ∧ t = u ++ r.text ++ v ∧
    r.offset = byteSize (before.flatMap Piece.text ++ u)

theorem of_mem_references_piece {offset : Nat} {p : Piece} {r : Reference}
    (hr : r ∈ Piece.references (offset, p)) :
    r.WellFormed ∧ ∃ t u v, p = .outside t ∧ t = u ++ r.text ++ v ∧
      r.offset = offset + byteSize u := by
  cases p with
  | outside t =>
    obtain ⟨hwell, u, v, ht, hoffset⟩ := of_mem_references_parts hr
    exact ⟨hwell, t, u, v, rfl, ht, hoffset⟩
  | literal t => cases hr

theorem of_mem_references_pieces {pieces : List Piece} {r : Reference}
    (hr : r ∈ references pieces) : r.WellFormed ∧ r.StandsIn pieces := by
  obtain ⟨⟨offset, p⟩, hp, hr⟩ := List.mem_flatMap.mp hr
  obtain ⟨before, after, hpieces, hplace⟩ := of_mem_placed hp
  obtain ⟨hwell, t, u, v, rfl, ht, hoffset⟩ := of_mem_references_piece hr
  refine ⟨hwell, before, t, after, u, v, hpieces, ht, ?_⟩
  rw [hoffset, hplace, Text.byteSize_append, Nat.zero_add]

theorem pairwise_references_placed (offset : Nat) (pieces : List Piece) :
    ((placed offset pieces).flatMap Piece.references).Pairwise (·.offset ≤ ·.offset) := by
  induction pieces generalizing offset with
  | nil => exact .nil
  | cons p pieces ih =>
    rw [placed, List.flatMap_cons, List.pairwise_append]
    refine ⟨?_, ih _, ?_⟩
    · cases p with
      | outside t => exact pairwise_references_parts offset none t
      | literal t => exact .nil
    · intro r hr s hs
      obtain ⟨-, t, u, v, rfl, rfl, hr⟩ := of_mem_references_piece hr
      obtain ⟨⟨later, q⟩, hq, hs⟩ := List.mem_flatMap.mp hs
      obtain ⟨before, -, -, hlater⟩ := of_mem_placed hq
      obtain ⟨-, -, w, -, -, -, hs⟩ := of_mem_references_piece hs
      simp only [Piece.text, Text.byteSize_append] at hlater
      omega

end Rollup.Filter
