import Mathlib.Data.List.DropRight
import Rollup.Text.Class

/-! # Trimming

Trimming takes white space off both ends and nothing else, so that a text which neither starts nor
ends with it stays as it is, whatever white space is put around it.
-/

namespace Rollup

/-- Dropping from the end leaves the first item, if any is left. -/
theorem dropWhile_rdropWhile_dropWhile {α : Type} (p : α → Bool) (l : List α) :
    ((l.dropWhile p).rdropWhile p).dropWhile p = (l.dropWhile p).rdropWhile p := by
  apply List.dropWhile_eq_self_iff.mpr
  intro hpos
  rw [(List.rdropWhile_prefix p (l.dropWhile p)).getElem hpos]
  exact List.dropWhile_get_zero_not p l _

namespace Text

variable {s t : Text}

theorem isBlank_iff : isBlank t ↔ ∀ c ∈ t, isWhite c := by simp [isBlank]

theorem isBlank_replicate (n : ℕ) : isBlank (List.replicate n ' ') := by
  apply isBlank_iff.mpr
  intro c hc
  rw [List.eq_of_mem_replicate hc]
  decide

theorem isWhite_of_isAlphanum {c : Char} (h : c.isAlphanum) : isWhite c = false := by
  have hrange : 48 ≤ c.toNat ∧ c.toNat ≤ 122 := by
    have hcases : (c.val ≥ 65 ∧ c.val ≤ 90 || (c.val ≥ 97 && c.val ≤ 122) ||
        (c.val ≥ 48 && c.val ≤ 57)) = true := h
    simp only [Bool.or_eq_true, Bool.and_eq_true, decide_eq_true_eq, ge_iff_le,
      UInt32.le_iff_toNat_le] at hcases
    change ((65 ≤ c.toNat ∧ c.toNat ≤ 90) ∨ (97 ≤ c.toNat ∧ c.toNat ≤ 122)) ∨
      (48 ≤ c.toNat ∧ c.toNat ≤ 57) at hcases
    omega
  simp [isWhite, inRanges, whiteRanges]
  omega

theorem isWhite_of_isDigit {c : Char} (h : c.isDigit) : isWhite c = false :=
  isWhite_of_isAlphanum (by rw [Char.isAlphanum, h, Bool.or_true])

theorem trimEnd_eq_rdropWhile (t : Text) : trimEnd t = t.rdropWhile isWhite := rfl

theorem trimStart_eq_nil_iff : trimStart t = [] ↔ isBlank t := by
  rw [isBlank_iff]
  exact List.dropWhile_eq_nil_iff

theorem trim_of_isBlank (h : isBlank t) : trim t = [] := by
  rw [trim, trimStart_eq_nil_iff.mpr h]
  rfl

theorem trimEnd_append (h : isBlank t) : trimEnd (s ++ t) = trimEnd s := by
  unfold trimEnd
  rw [List.reverse_append, List.dropWhile_append_of_pos]
  intro c hc
  exact isBlank_iff.mp h c (List.mem_reverse.mp hc)

theorem trim_append_left (h : isBlank s) : trim (s ++ t) = trim t := by
  rw [trim, trimStart, List.dropWhile_append_of_pos (isBlank_iff.mp h)]
  rfl

theorem trim_append_right (h : isBlank t) : trim (s ++ t) = trim s := by
  by_cases hs : isBlank s
  · rw [trim_append_left hs, trim_of_isBlank h, trim_of_isBlank hs]
  · have hne : (List.dropWhile isWhite s).isEmpty = false :=
      List.isEmpty_eq_false_iff.mpr fun hnil => hs (trimStart_eq_nil_iff.mp hnil)
    rw [trim, trimStart, List.dropWhile_append, hne, if_neg (by simp), trimEnd_append h]
    rfl

theorem trimStart_eq_self_iff : trimStart t = t ↔ ∀ c ∈ t.head?, ¬ isWhite c := by
  cases t with
  | nil => simp [trimStart]
  | cons c t => simp [trimStart, List.dropWhile_eq_self_iff]

theorem trim_eq_self (hhead : ∀ c ∈ t.head?, ¬ isWhite c) (hlast : ∀ c ∈ t.getLast?, ¬ isWhite c) :
    trim t = t := by
  rw [trim, trimStart_eq_self_iff.mpr hhead, trimEnd_eq_rdropWhile, List.rdropWhile_eq_self_iff]
  intro hne
  exact hlast _ (List.getLast?_eq_some_getLast hne)

theorem trimStart_trim (t : Text) : trimStart (trim t) = trim t :=
  dropWhile_rdropWhile_dropWhile isWhite t

theorem trim_trim (t : Text) : trim (trim t) = trim t := by
  rw [trim, trimStart_trim, trim, trimEnd_eq_rdropWhile, trimEnd_eq_rdropWhile,
    List.rdropWhile_idempotent]

theorem not_isWhite_of_mem_head?_trimStart {c : Char} (h : c ∈ (trimStart t).head?) :
    ¬ isWhite c := by
  have hidem : trimStart (trimStart t) = trimStart t := List.dropWhile_idempotent isWhite t
  exact trimStart_eq_self_iff.mp hidem c h

theorem head?_trim (t : Text) : (trim t).head? = (trimStart t).head? := by
  cases hstart : trimStart t with
  | nil => rw [trim, hstart]; rfl
  | cons c u =>
    have hc : ¬ isWhite c := not_isWhite_of_mem_head?_trimStart (t := t) (by simp [hstart])
    have hend : trim t = (c :: u).rdropWhile isWhite := by rw [trim, hstart, trimEnd_eq_rdropWhile]
    cases htrim : trim t with
    | nil =>
      rw [hend, List.rdropWhile_eq_nil_iff] at htrim
      exact absurd (htrim c List.mem_cons_self) hc
    | cons d v =>
      have hprefix : d :: v <+: c :: u := by
        rw [← htrim, hend]
        exact List.rdropWhile_prefix isWhite _
      rw [(List.cons_prefix_cons.mp hprefix).1]
      rfl

theorem exists_eq_trim (t : Text) : ∃ before after, isBlank before ∧ isBlank after ∧
    t = before ++ trim t ++ after := by
  have hstart : t = t.takeWhile isWhite ++ trimStart t := List.takeWhile_append_dropWhile.symm
  have hend : trimStart t = trim t ++ (trimStart t).rtakeWhile isWhite := by
    have hreverse := congrArg List.reverse
      (List.takeWhile_append_dropWhile (p := isWhite) (l := (trimStart t).reverse)).symm
    rwa [List.reverse_reverse, List.reverse_append] at hreverse
  refine ⟨t.takeWhile isWhite, (trimStart t).rtakeWhile isWhite, ?_, ?_, ?_⟩
  · exact isBlank_iff.mpr fun c => List.mem_takeWhile_imp
  · exact isBlank_iff.mpr fun c => List.mem_rtakeWhile_imp
  · rw [List.append_assoc, ← hend, ← hstart]

theorem not_isWhite_of_mem_head?_trim {c : Char} (h : c ∈ (trim t).head?) : ¬ isWhite c := by
  rw [head?_trim] at h
  exact not_isWhite_of_mem_head?_trimStart h

theorem not_isWhite_of_mem_getLast?_trim {c : Char} (h : c ∈ (trim t).getLast?) : ¬ isWhite c := by
  obtain ⟨hne, rfl⟩ := List.mem_getLast?_eq_getLast h
  exact List.rdropWhile_last_not isWhite (trimStart t) hne

/-- The white space between two texts stays when they are trimmed as one. -/
theorem exists_trim_append (hs : trim s ≠ []) (ht : trim t ≠ []) :
    ∃ before u v after, isBlank u ∧ isBlank v ∧ s = before ++ trim s ++ u ∧
      t = v ++ trim t ++ after ∧ trim (s ++ t) = trim s ++ (u ++ v) ++ trim t := by
  obtain ⟨before, u, hbefore, hu, hs'⟩ := exists_eq_trim s
  obtain ⟨v, after, hv, hafter, ht'⟩ := exists_eq_trim t
  refine ⟨before, u, v, after, hu, hv, hs', ht', ?_⟩
  have hwhole : s ++ t = before ++ ((trim s ++ (u ++ v) ++ trim t) ++ after) := by
    conv_lhs => rw [hs', ht']
    simp only [List.append_assoc]
  rw [hwhole, trim_append_left hbefore, trim_append_right hafter]
  apply trim_eq_self
  · rw [List.append_assoc, List.head?_append_of_ne_nil _ hs]
    exact fun c => not_isWhite_of_mem_head?_trim
  · rw [List.getLast?_append_of_ne_nil _ ht]
    exact fun c => not_isWhite_of_mem_getLast?_trim

theorem exists_trimStart_append {t v : Text} (h : isBlank v) :
    ∃ w, isBlank w ∧ trimStart (t ++ v) = trimStart t ++ w := by
  unfold trimStart
  rw [List.dropWhile_append]
  split
  case isTrue ht =>
    refine ⟨[], rfl, ?_⟩
    rw [List.isEmpty_iff.mp ht]
    exact trimStart_eq_nil_iff.mpr h
  case isFalse => exact ⟨v, h, rfl⟩

/-- White space at the end does not make a start without any. -/
theorem prefix_append_blank_iff {start t v : Text} (hstart : ∀ c ∈ start, ¬ isWhite c)
    (h : isBlank v) : start <+: t ++ v ↔ start <+: t := by
  constructor
  · intro hprefix
    rcases List.prefix_or_prefix_of_prefix hprefix (List.prefix_append t v) with hle | ⟨u, rfl⟩
    · exact hle
    · cases u with
      | nil => simp
      | cons c u =>
        have hc : c ∈ v := (List.prefix_append_right_inj t).mp hprefix |>.subset (by simp)
        exact absurd (isBlank_iff.mp h c hc) (hstart c (by simp))
  · exact fun hprefix => hprefix.trans (List.prefix_append t v)

theorem prefix_trimStart_append_blank {start t v : Text} (hstart : ∀ c ∈ start, ¬ isWhite c)
    (h : isBlank v) : start <+: trimStart (t ++ v) ↔ start <+: trimStart t := by
  obtain ⟨w, hw, heq⟩ := exists_trimStart_append (t := t) h
  rw [heq, prefix_append_blank_iff hstart hw]

theorem mem_of_mem_trim {c : Char} (h : c ∈ trim t) : c ∈ t :=
  (List.dropWhile_sublist _).mem ((List.rdropWhile_prefix isWhite _).mem h)

theorem mem_trim_of_not_isWhite {c : Char} (h : c ∈ t) (hc : ¬ isWhite c) : c ∈ trim t := by
  obtain ⟨before, after, hbefore, hafter, ht⟩ := exists_eq_trim t
  rw [ht, List.mem_append, List.mem_append] at h
  rcases h with (h | h) | h
  · exact absurd (isBlank_iff.mp hbefore c h) hc
  · exact h
  · exact absurd (isBlank_iff.mp hafter c h) hc

end Text

end Rollup
