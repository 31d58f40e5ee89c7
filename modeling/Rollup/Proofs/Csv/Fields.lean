import Mathlib.Algebra.Ring.Parity
import Rollup.Proofs.Text.Pieces
import Rollup.Table.Csv

/-! # The fields of a written line

A text that is written as a field is read up to the comma after it or to the end of the line. What
the line gives back for a cell is the guarded cell, which is trimmed unless it stood in quotes.
Whether a line can be read hangs on the number of its quotes alone.
-/

namespace Rollup.Csv

/-! ## One field -/

/-- Puts a field right in front of the first field. They are one field then. -/
def Field.join (f : Field) : List Field → List Field
  | [] => []
  | g :: gs => ⟨f.text ++ g.text, f.quoted || g.quoted⟩ :: gs

theorem Field.push_join (c : Char) (t : Text) (quoted : Bool) (fs : List Field) :
    Field.push c (Field.join ⟨t, quoted⟩ fs) = Field.join ⟨c :: t, quoted⟩ fs := by
  cases fs <;> rfl

theorem Field.mark_join (t : Text) (quoted : Bool) (fs : List Field) :
    Field.mark (Field.join ⟨t, quoted⟩ fs) = Field.join ⟨t, true⟩ fs := by
  cases fs <;> rfl

theorem Field.join_nil : Field.join ⟨[], false⟩ = id := by
  funext fs
  cases fs <;> simp [Field.join]

@[simp] theorem Field.join_empty (f : Field) (fs : List Field) :
    Field.join f (.empty :: fs) = f :: fs := by
  simp [Field.join, Field.empty]

section

variable {t rest : Text}

theorem readFields?_closing (h : rest.head? ≠ some '"') :
    readFields? true ('"' :: rest) = readFields? false rest := by
  rw [readFields?]
  rintro u rfl
  exact h rfl

theorem readFields?_inside {c : Char} (h : c ≠ '"') :
    readFields? true (c :: rest) = (readFields? true rest).map (Field.push c) := by
  rw [readFields?]
  · rintro u rfl
    exact absurd rfl h
  · exact h

theorem readFields?_outside {c : Char} (hquote : c ≠ '"') (hcomma : c ≠ ',') :
    readFields? false (c :: rest) = (readFields? false rest).map (Field.push c) := by
  rw [readFields?]
  · exact hquote
  · exact hcomma

theorem readFields?_doubleQuotes (h : rest.head? ≠ some '"') :
    readFields? true (doubleQuotes t ++ '"' :: rest) =
      (readFields? false rest).map (Field.join ⟨t, false⟩) := by
  induction t with
  | nil => simp [doubleQuotes, readFields?_closing h, Field.join_nil]
  | cons c t ih =>
    by_cases hc : c = '"'
    · subst hc
      have hread : readFields? true ('"' :: '"' :: (doubleQuotes t ++ '"' :: rest)) =
          (readFields? true (doubleQuotes t ++ '"' :: rest)).map (Field.push '"') := by
        rw [readFields?]
      rw [ih] at hread
      simpa [doubleQuotes, Function.comp_def, Field.push_join] using hread
    · have hread : readFields? true (c :: (doubleQuotes t ++ '"' :: rest)) =
          (readFields? true (doubleQuotes t ++ '"' :: rest)).map (Field.push c) :=
        readFields?_inside hc
      rw [ih] at hread
      simpa [doubleQuotes, hc, Function.comp_def, Field.push_join] using hread

theorem readFields?_plain (h : ∀ c ∈ t, c ≠ '"' ∧ c ≠ ',') :
    readFields? false (t ++ rest) = (readFields? false rest).map (Field.join ⟨t, false⟩) := by
  induction t with
  | nil => simp [Field.join_nil]
  | cons c t ih =>
    obtain ⟨⟨hquote, hcomma⟩, ht⟩ := List.forall_mem_cons.mp h
    rw [List.cons_append, readFields?_outside hquote hcomma, ih ht, Option.map_map]
    simp [Function.comp_def, Field.push_join]

theorem needsQuotes_iff : needsQuotes t ↔ ∃ c ∈ t, c ∈ [',', '"', '\n', '\r'] := by
  simp [needsQuotes, or_assoc]

theorem readFields?_encode (h : rest.head? ≠ some '"') :
    readFields? false (encode t ++ rest) =
      (readFields? false rest).map (Field.join ⟨t, needsQuotes t⟩) := by
  unfold encode
  by_cases hquotes : needsQuotes t
  · rw [if_pos hquotes, List.append_assoc, List.cons_append, List.singleton_append, readFields?,
      readFields?_doubleQuotes h, Option.map_map, hquotes]
    simp [Function.comp_def, Field.mark_join]
  · have hnone : needsQuotes t = false := by simpa using hquotes
    have hplain : ∀ c ∈ t, c ≠ '"' ∧ c ≠ ',' := by
      intro c hc
      constructor
      · rintro rfl
        exact hquotes (needsQuotes_iff.mpr ⟨'"', hc, by simp⟩)
      · rintro rfl
        exact hquotes (needsQuotes_iff.mpr ⟨',', hc, by simp⟩)
    rw [if_neg hquotes, readFields?_plain hplain, hnone]

end

/-! ## A line -/

theorem renderLine_cons {cell : Text} {cells : List Text} (h : cells ≠ []) :
    renderLine (cell :: cells) = renderCell cell ++ ',' :: renderLine cells := by
  obtain ⟨next, later, rfl⟩ := List.exists_cons_of_ne_nil h
  simp [renderLine, Text.joinWith, List.intercalate_cons_cons]

theorem renderLine_singleton (cell : Text) : renderLine [cell] = renderCell cell := by
  simp [renderLine, Text.joinWith]

theorem readFields?_renderLine {cells : List Text} (h : cells ≠ []) :
    readFields? false (renderLine cells) =
      some (cells.map fun cell => ⟨guarded cell, needsQuotes (guarded cell)⟩) := by
  induction cells with
  | nil => exact absurd rfl h
  | cons cell cells ih =>
    by_cases hcells : cells = []
    · have hread : readFields? false (encode (guarded cell) ++ []) =
          (readFields? false []).map (Field.join ⟨guarded cell, needsQuotes (guarded cell)⟩) :=
        readFields?_encode (by simp)
      rw [List.append_nil] at hread
      simp [hcells, renderLine_singleton, renderCell, hread, readFields?]
    · have hread : readFields? false (encode (guarded cell) ++ ',' :: renderLine cells) =
          (readFields? false (',' :: renderLine cells)).map
            (Field.join ⟨guarded cell, needsQuotes (guarded cell)⟩) := readFields?_encode (by simp)
      rw [readFields?, ih hcells] at hread
      simp [renderLine_cons hcells, renderCell, hread]

/-- What a cell becomes when it is written and read. -/
def reread (cell : Text) : Text :=
  if needsQuotes (guarded cell) then guarded cell else Text.trim (guarded cell)

theorem readLine?_renderLine {cells : List Text} (h : cells ≠ []) :
    readLine? (renderLine cells) = some (cells.map reread) := by
  rw [readLine?, readFields?_renderLine h, Option.map_some, List.map_map]
  rfl

/-- A written line is read as one field for every cell, in order. The guarded cell comes back as it
is when it holds a comma, a quote or a line break, and trimmed otherwise. -/
theorem readLine?_written {cells : List Text} (h : cells ≠ []) :
    readLine? (renderLine cells) = some (cells.map fun cell =>
      let t := if needsGuard cell then '\'' :: cell else cell
      if t.any (· ∈ [',', '"', '\n', '\r']) then t else Text.trim t) := by
  rw [readLine?_renderLine h]
  congr 1
  apply List.map_congr_left
  intro cell _
  have hquotes : needsQuotes (guarded cell) = (guarded cell).any (· ∈ [',', '"', '\n', '\r']) := by
    rw [Bool.eq_iff_iff, needsQuotes_iff]
    simp
  rw [reread, hquotes]
  rfl

theorem readLine?_written_mixed_cells :
    let cells : List Text := [" =1+1", "", "say \"hi\"", "-2.5 ", "", "a,b\r\n", "\"", " x\t"].map
      String.toList
    cells ≠ [] ∧ readLine? (renderLine cells) = some (["' =1+1", "", "say \"hi\"", "-2.5", "",
      "a,b\r\n", "\"", "x"].map String.toList) := by
  intro cells
  have hne : cells ≠ [] := List.cons_ne_nil _ _
  exact ⟨hne, (readLine?_written hne).trans (by decide)⟩

/-! ## Lines that can be read -/

/-- Every quote opens or closes, and a doubled one does both. -/
theorem isSome_readFields?_iff (inside : Bool) (t : Text) :
    (readFields? inside t).isSome ↔ (inside ↔ Odd (t.count '"')) := by
  have hodd (n : ℕ) : Odd (n + 1) ↔ Even n := by rw [Nat.odd_add_one, Nat.not_odd_iff_even]
  have heven (n : ℕ) : Even (n + 1) ↔ Odd n := by rw [Nat.even_add_one, Nat.not_even_iff_odd]
  fun_induction readFields? inside t <;> simp_all

end Rollup.Csv
