import Rollup.Filter.RowFilter
import Rollup.Proofs.Filter.Parts

/-! # The columns that a filter refers to

A mention outside literals stands for the first of its candidates that is a column. What an engine
compiles is the script with an access in the place of each such mention.
-/

namespace Rollup.Filter

variable {position : Text → Bool → Option ℕ}

/-! ## What a mention stands for -/

/-- The position of a name: that of a column, or of the block. -/
def columnOf (position : Text → Bool → Option ℕ) (name : Text) (quoted : Bool) : Option ℕ :=
  if !quoted && name = blockName then some blockPosition else position name quoted

/-- The column that a mention stands for, and what of the mention stays behind it. -/
def Mention.column? (position : Text → Bool → Option ℕ) (m : Mention) : Option (ℕ × Text) :=
  m.candidates.findSome? fun (name, rest) => (columnOf position name m.isQuoted).map (·, rest)

/-! ## The script that is compiled -/

def Part.replaced (position : Text → Bool → Option ℕ) : Part → Text
  | .plain c => [c]
  | .mention m _ =>
    match m.column? position with
    | some (i, rest) => access i ++ rest
    | none => m.text

/-- In every state the run gives this value. -/
def Gives {σ α : Type} (x : StateM σ α) (a : α) : Prop := ∀ s, (x.run s).1 = a

section

variable {σ α β : Type}

theorem gives_pure (a : α) : Gives (pure a : StateM σ α) a := fun _ => rfl

theorem Gives.bind {x : StateM σ α} {f : α → StateM σ β} {a : α} {b : β} (hx : Gives x a)
    (hf : Gives (f a) b) : Gives (x >>= f) b := by
  intro s
  change ((f (x.run s).1).run (x.run s).2).1 = b
  rw [hx s]
  exact hf _

theorem gives_mapM {f : α → StateM σ β} {g : α → β} (h : ∀ a, Gives (f a) (g a)) (as : List α) :
    Gives (as.mapM f) (as.map g) := by
  induction as with
  | nil => exact gives_pure []
  | cons a as ih =>
    rw [List.mapM_cons]
    exact (h a).bind (ih.bind (gives_pure _))

end

theorem gives_notingLookup (r : Reference) :
    Gives (notingLookup position r) (columnOf position r.name r.quoted) := by
  intro s
  unfold notingLookup columnOf
  generalize (if !r.quoted && decide (r.name = blockName) then some blockPosition
    else position r.name r.quoted) = found
  cases found with
  | none => dsimp only; split <;> rfl
  | some i => rfl

theorem gives_firstColumn (quoted : Bool) (offset : ℕ) (candidates : List (Text × Text)) :
    Gives (firstColumn (notingLookup position) quoted offset candidates)
      ((candidates.findSome? fun (name, rest) =>
        (columnOf position name quoted).map (·, rest)).map fun (i, rest) => access i ++ rest) := by
  induction candidates with
  | nil => exact gives_pure none
  | cons candidate candidates ih =>
    obtain ⟨name, rest⟩ := candidate
    apply (gives_notingLookup ⟨name, quoted, offset⟩).bind
    rw [List.findSome?_cons]
    dsimp only
    cases columnOf position name quoted with
    | none => exact ih
    | some i => exact gives_pure _

theorem gives_substitutePart (p : Part) :
    Gives (substitutePart (notingLookup position) p) (p.replaced position) := by
  cases p with
  | plain c => exact gives_pure [c]
  | mention m offset =>
    refine (gives_firstColumn m.isQuoted offset m.candidates).bind ?_
    unfold Part.replaced Mention.column?
    dsimp only
    split
    case h_1 h => rw [h]; exact gives_pure _
    case h_2 h => rw [h]; exact gives_pure _

theorem gives_substitute (script : Text) : Gives (substitute (notingLookup position) script)
    ((scriptParts script).flatMap (Part.replaced position)) := by
  rw [substitute_eq_mapM, map_eq_pure_bind, List.flatMap_def]
  exact (gives_mapM gives_substitutePart _).bind (gives_pure _)

end Rollup.Filter
