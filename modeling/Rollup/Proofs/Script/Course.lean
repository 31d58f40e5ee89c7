import Rollup.Proofs.Filter.Course
import Rollup.Proofs.Script.Accesses
import Rollup.Script.Evaluate

/-! # What an evaluation of a script needs

There is no value without the value of every part that no operator leaves out, and an index past the
end of the row has none.
-/

namespace Rollup.Script

variable {data : List Datum}

/-- An operator leaves out its right operand for the data of a row. -/
def LeavesOut (data : List Datum) (op : BinaryOperator) (lhs : Term) : Prop :=
  ∃ b, op.deciding? = some b ∧ lhs.evaluate data = some (.bool b)

/-- `s` stands in a term where no operator leaves it out, so there is no value without its own. -/
abbrev Term.Needs (data : List Datum) (t s : Term) : Prop := Term.Within (LeavesOut data) s t

theorem evaluateAll_eq_none {t : Term} {ts : List Term} (hmem : t ∈ ts)
    (h : t.evaluate data = none) : Term.evaluateAll data ts = none := by
  induction ts with
  | nil => cases hmem
  | cons u us ih =>
    rcases List.mem_cons.mp hmem with rfl | hmem
    · simp [Term.evaluateAll, h]
    · simp [Term.evaluateAll, ih hmem]

theorem evaluate_binary_eq_none {op : BinaryOperator} {lhs rhs : Term}
    (hop : ¬ LeavesOut data op lhs) (h : rhs.evaluate data = none) :
    (Term.binary op lhs rhs).evaluate data = none := by
  rw [Term.evaluate]
  cases hlhs : lhs.evaluate data with
  | none => rfl
  | some a =>
    rw [Option.bind_eq_bind, Option.bind_some, h]
    split
    case h_1 decided b hdecided =>
      have hne : b ≠ decided := by
        rintro rfl
        exact hop ⟨b, hdecided, hlhs⟩
      rw [if_neg hne]
      rfl
    case h_2 => rfl
    case h_3 => rfl

theorem Term.Needs.evaluate_eq_none {s t : Term} (h : t.Needs data s)
    (hs : s.evaluate data = none) : t.evaluate data = none := by
  induction h with
  | self => exact hs
  | item hmem _ ih => rw [Term.evaluate, evaluateAll_eq_none hmem ih]; rfl
  | object _ ih => rw [Term.evaluate, ih]; rfl
  | @index t _ _ ih => rw [Term.evaluate, ih]; cases t.evaluate data <;> rfl
  | owner _ ih => rw [Term.evaluate, ih]; rfl
  | argument hmem _ ih => rw [Term.evaluate, evaluateAll_eq_none hmem ih]; rfl
  | operand _ ih => rw [Term.evaluate, ih]; rfl
  | left _ ih => rw [Term.evaluate, ih]; rfl
  | right hskips _ ih => exact evaluate_binary_eq_none hskips ih

theorem IsIndex.evaluate_eq_none {i offset : ℕ} {index : Term} (h : IsIndex i index)
    (hend : data.length ≤ i) : (Term.element (.row offset) index).evaluate data = none := by
  cases h with
  | int =>
    have hnone : data[i]? = none := List.getElem?_eq_none hend
    simp [Term.evaluate, Datum.element?, Datum.at?, hnone]
  | float => rfl

/-! ## The engine -/

/-- A script comes to an element of the row where no operator leaves it out. -/
def course : engine.Course where
  Reaches p items offset :=
    ∃ index, Term.Needs (items.map Datum.ofItem) p (.element (.row offset) index)
  Joins decided p lhs rhs :=
    ∃ op : BinaryOperator, op.deciding? = some decided ∧ p = Term.binary op lhs rhs

theorem truth?_eq_some_iff {t : Term} {items : List Filter.Item} {b : Bool} :
    engine.truth? t items = some b ↔ t.evaluate (items.map Datum.ofItem) = some (.bool b) := by
  constructor
  · intro h
    obtain ⟨d, hd, hb⟩ := Option.bind_eq_some_iff.mp h
    unfold Datum.bool? at hb
    split at hb <;> cases hb
    exact hd
  · intro h
    exact Option.bind_eq_some_iff.mpr ⟨_, h, rfl⟩

theorem read_of_compile {script : Text} {t : Term} (h : engine.compile script = .ok t) :
    Term.read script = .ok t := eq_ok_of_mapError_eq_ok h

/-- Where the left operand does not decide, the value is that of the right one. -/
theorem result?_of_ne {op : BinaryOperator} {decided b : Bool} (hop : op.deciding? = some decided)
    (hb : b ≠ decided) (d : Datum) :
    (op.result? (.bool b) d).bind Datum.bool? = d.bool? := by
  unfold BinaryOperator.deciding? at hop
  split at hop <;> cases hop
  all_goals
    rw [Bool.eq_not_of_ne hb]
    cases d <;> rfl

theorem truth?_binary {op : BinaryOperator} {decided : Bool} (hop : op.deciding? = some decided)
    (lhs rhs : Term) (items : List Filter.Item) :
    engine.truth? (Term.binary op lhs rhs) items = (engine.truth? lhs items).bind fun b =>
      if b = decided then some b else engine.truth? rhs items := by
  change ((Term.binary op lhs rhs).evaluate _).bind Datum.bool? =
    ((lhs.evaluate _).bind Datum.bool?).bind _
  rw [Term.evaluate, hop]
  cases lhs.evaluate (items.map Datum.ofItem) with
  | none => rfl
  | some a =>
    cases a with
    | bool b =>
      by_cases hb : b = decided
      · simp [hb, Datum.bool?]
      · have hresult := funext (result?_of_ne hop hb)
        simp [hb, Datum.bool?, Option.bind_assoc, hresult, engine]
    | _ => rfl

theorem isLawful_course : course.IsLawful where
  past_end {p items i before after} hp hreaches hend := by
    obtain ⟨index, hneeds⟩ := hreaches
    have hindex := indexedAt_of_read (read_of_compile hp) index hneeds.isPart
    have hnone := hneeds.evaluate_eq_none (hindex.evaluate_eq_none (by simpa using hend))
    exact Option.bind_eq_none_iff.mpr (by simp [hnone])
  short_circuit := by
    rintro decided p lhs rhs ⟨op, hop, rfl⟩ items
    exact truth?_binary hop lhs rhs items
  left := by
    rintro decided p lhs rhs items offset ⟨op, -, rfl⟩ ⟨index, hneeds⟩
    exact ⟨index, .left hneeds⟩
  right := by
    rintro decided p lhs rhs items offset ⟨op, hop, rfl⟩ hlhs ⟨index, hneeds⟩
    refine ⟨index, .right ?_ hneeds⟩
    rintro ⟨b, hb, hleft⟩
    obtain rfl := Option.some.inj (hop.symm.trans hb)
    have hsame := hlhs.symm.trans (truth?_eq_some_iff.mpr hleft)
    simp at hsame

end Rollup.Script
