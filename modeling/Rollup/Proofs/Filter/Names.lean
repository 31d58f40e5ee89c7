import Rollup.Proofs.Column.Quoted
import Rollup.Proofs.Filter.Substitution

/-! # Quoted names in filters

A name in single quotes is replaced by the access to its column, unless it holds a double quote: a
string literal starts there before any single quote is looked at.
-/

namespace Rollup

open Text (byteSize quoted)

namespace Filter

/-! ## A quoted name at the start -/

section

variable {name rest : Text}

theorem mention?_unclosed (before : Option Char) (hname : '\'' ∉ name) :
    mention? before ('\'' :: name) = none := by
  have hinside : (name ++ []).takeWhile (· != '\'') = name :=
    Text.takeWhile_ne_append hname (by simp)
  rw [List.append_nil] at hinside
  simp [mention?, hinside]

/-- A name may start after a single quote as it may at the start of a text. -/
theorem parts_after_quote (offset : Nat) (t : Text) :
    parts offset (some '\'') t = parts offset none t := by
  cases t with
  | nil => rw [parts, parts]
  | cons c t =>
    have hword : Text.isWord '\'' = false := by decide
    have hsame : mention? (some '\'') (c :: t) = mention? none (c :: t) := by
      simp [mention?, hword]
    rw [parts, parts, hsame]

theorem parts_quoted (hname : '\'' ∉ name) :
    parts 0 none (quoted '\'' name ++ rest) =
      .mention (.quoted name) 0 :: parts (byteSize (quoted '\'' name)) none rest := by
  have hscript : quoted '\'' name ++ rest = '\'' :: (name ++ '\'' :: rest) := by simp [quoted]
  have hlast : (Mention.quoted name).text.getLast? = some '\'' := List.getLast?_concat
  have hdrop : (name ++ '\'' :: rest).drop ((Mention.quoted name).text.length - 1) = rest := by
    have hlength : (Mention.quoted name).text.length - 1 = (name ++ ['\'']).length := by
      simp [Mention.text]
    rw [hlength, List.append_cons name _ rest, List.drop_left]
  rw [hscript, parts_of_some (mention?_quoted none hname), hlast, hdrop, parts_after_quote,
    Nat.zero_add]
  rfl

variable {m : Type → Type} [Monad m] [LawfulMonad m]

theorem substitute_quoted {lookup : Reference → m (Option Nat)} {position : Nat}
    (hfound : lookup ⟨name, true, 0⟩ = pure (some position)) (hname : '\'' ∉ name)
    (hplain : '"' ∉ name) (hrest : '"' ∉ rest) :
    substitute lookup (quoted '\'' name ++ rest) =
      (access position ++ ·) <$>
        substitute (fun r => lookup (r.shift (byteSize (quoted '\'' name)))) rest := by
  have hscript : '"' ∉ quoted '\'' name ++ rest := by simp [quoted, hplain, hrest]
  have hmoved := substituteOutside_shift lookup (byteSize (quoted '\'' name)) 0 rest
  rw [substitute_of_outside _ hscript, substitute_of_outside _ hrest, ← hmoved, Nat.add_zero]
  simp [substituteOutside, parts_quoted hname, substitutePart, firstColumn, Mention.candidates,
    Mention.isQuoted, hfound]

/-- A single quote stays when a literal starts before the next one. -/
theorem substitute_unclosed (lookup : Reference → m (Option Nat)) (hname : '\'' ∉ name)
    (hplain : '"' ∉ name) :
    ∃ after : m Text, substitute lookup ('\'' :: name ++ '"' :: rest) = ('\'' :: ·) <$> after := by
  have hcut : cut ('\'' :: name ++ '"' :: rest) = .outside ('\'' :: name) :: cut ('"' :: rest) :=
    cut_outside (List.cons_ne_nil _ _) (by simp [hplain]) (by simp)
  refine ⟨do
    let replaced ← (parts (0 + '\''.utf8Size) (some '\'') name).mapM (substitutePart lookup)
    let later ← substitutePieces lookup (0 + byteSize ('\'' :: name)) (cut ('"' :: rest))
    return replaced.flatten ++ later, ?_⟩
  rw [substitute, hcut]
  simp [substitutePieces, substituteOutside, parts_of_none (mention?_unclosed none hname),
    substitutePart]

theorem substitute_quoted_ne {σ : Type} [Inhabited σ] {lookup : Reference → StateM σ (Option Nat)}
    (hname : '\'' ∉ name) (hquote : '"' ∈ name) (position : Nat) (after : StateM σ Text) :
    substitute lookup (quoted '\'' name ++ rest) ≠ (access position ++ ·) <$> after := by
  obtain ⟨u, v, rfl, hplain⟩ := List.eq_append_cons_of_mem hquote
  have hscript : quoted '\'' (u ++ '"' :: v) ++ rest = '\'' :: u ++ '"' :: (v ++ '\'' :: rest) := by
    simp [quoted]
  have hu : '\'' ∉ u := fun h => hname (List.mem_append_left _ h)
  obtain ⟨kept, hkept⟩ := substitute_unclosed lookup hu hplain
  intro h
  rw [hscript, hkept] at h
  -- the one text starts with the quote, and the other with the name of the row
  have hfirst : some '\'' = some 'r' :=
    congrArg (fun y : StateM σ Text => (y.run default).1.head?) h
  exact absurd hfirst (by decide)

end

end Filter

/-! ## Names of columns -/

section

variable {t : Table} {header : List Text} {name rest : Text}

theorem Table.notingLookup_quoted (hheader : t.header = some header) (hmem : name ∈ header)
    (offset : Nat) :
    Filter.notingLookup (fun name quoted => (t.columns.position name quoted).toOption)
      ⟨name, true, offset⟩ = pure (some (header.idxOf name + 1)) := by
  simp [Filter.notingLookup, Table.position_name hheader hmem, Except.toOption]

/-- The reference to a column by its name in single quotes is replaced by the access to the cell,
and the rest is substituted by itself. With a double quote in the name it is not replaced at all. -/
theorem Table.substitute_quoted_name (hheader : t.header = some header) (hmem : name ∈ header)
    (hname : '\'' ∉ name) (hrest : '"' ∉ rest) :
    let lookup := Filter.notingLookup fun name quoted => (t.columns.position name quoted).toOption
    ('"' ∉ name →
      Filter.substitute lookup (quoted '\'' name ++ rest) =
        (Filter.access (header.idxOf name + 1) ++ ·) <$>
          Filter.substitute (fun r => lookup (r.shift (byteSize (quoted '\'' name)))) rest) ∧
      ('"' ∈ name → ∀ position after,
        Filter.substitute lookup (quoted '\'' name ++ rest) ≠
          (Filter.access position ++ ·) <$> after) := by
  intro lookup
  constructor
  · intro hplain
    exact Filter.substitute_quoted (Table.notingLookup_quoted hheader hmem 0) hname hplain hrest
  · exact Filter.substitute_quoted_ne hname

theorem Table.substitute_quoted_name_dollar :
    let header : List Text := ["a".toList, "$1 > (b".toList, "$1 > (b".toList]
    let t : Table := ⟨some header, []⟩
    let lookup := Filter.notingLookup fun name quoted => (t.columns.position name quoted).toOption
    let name : Text := "$1 > (b".toList
    t.header = some header ∧ name ∈ header ∧ '\'' ∉ name ∧ '"' ∉ " > $1".toList ∧
      Filter.substitute lookup (quoted '\'' name ++ " > $1".toList) =
        (Filter.access 2 ++ ·) <$>
          Filter.substitute (fun r => lookup (r.shift 9)) " > $1".toList := by
  intro header t lookup name
  have hmem : name ∈ header := by decide
  have hname : '\'' ∉ name := by decide
  have hrest : '"' ∉ " > $1".toList := by decide
  have hboth := Table.substitute_quoted_name (t := t) rfl hmem hname hrest
  exact ⟨rfl, hmem, hname, hrest, hboth.1 (by decide)⟩

/-- The column with a double quote in its name is not found. -/
theorem Table.substitute_quoted_name_double_quote :
    let header : List Text := ["a\"b".toList]
    let t : Table := ⟨some header, []⟩
    let lookup := Filter.notingLookup fun name quoted => (t.columns.position name quoted).toOption
    let name : Text := "a\"b".toList
    let rest : Text := " > 3".toList
    t.header = some header ∧ name ∈ header ∧ '\'' ∉ name ∧ '\'' ∉ rest ∧ '"' ∉ rest ∧
      Filter.substitute lookup (quoted '\'' name ++ rest) ≠
        (Filter.access 1 ++ ·) <$> Filter.substitute (fun r => lookup (r.shift 5)) rest := by
  intro header t lookup name rest
  have hname : '\'' ∉ name := by decide
  have hquote : '"' ∈ name := by decide
  exact ⟨rfl, by decide, hname, by decide, by decide,
    Filter.substitute_quoted_ne hname hquote _ _⟩

end

end Rollup
