import Rollup.Column.Lookup
import Rollup.Proofs.Filter.Columns

/-! # Unknown columns in filters

A quoted name or a position has to be a column, a bare name may be something else. The first mention
that breaks this is noted while the script is substituted.
-/

namespace Rollup

namespace Filter

variable {position : Text → Bool → Option ℕ}

/-! ## The fault that is noted -/

/-- A name in single quotes, or a position, that is no column. -/
inductive Mention.Misses (position : Text → Bool → Option ℕ) : Mention → Text → Prop
  | quoted {name : Text} (h : position name true = none) : Misses position (.quoted name) name
  | position {digits : Text} (h : position ('$' :: digits) false = none) :
      Misses position (.position digits) ('$' :: digits)

/-- The fault of a reference that has to be a column and is none. -/
def Reference.fault? (position : Text → Bool → Option ℕ) (r : Reference) : Option FilterFault :=
  if position r.name r.quoted = none then some ⟨.unknownColumn r.name, r.offset⟩ else none

def Part.fault? (position : Text → Bool → Option ℕ) : Part → Option FilterFault
  | .plain _ => none
  | .mention (.quoted name) offset => (Reference.mk name true offset).fault? position
  | .mention (.position digits) offset =>
    (Reference.mk ('$' :: digits) false offset).fault? position
  | .mention (.bare ..) _ => none

theorem Reference.fault?_eq_some_iff {r : Reference} {f : FilterFault} :
    r.fault? position = some f ↔
      position r.name r.quoted = none ∧ f = ⟨.unknownColumn r.name, r.offset⟩ := by
  unfold Reference.fault?
  split
  case isTrue h => simp [h, eq_comm]
  case isFalse h => simp [h]

theorem Part.fault?_eq_some_iff {p : Part} {f : FilterFault} :
    p.fault? position = some f ↔ ∃ m name, p = .mention m f.offset ∧ m.Misses position name ∧
      f.problem = .unknownColumn name := by
  constructor
  · intro h
    unfold Part.fault? at h
    split at h
    case h_1 | h_4 => cases h
    all_goals
      obtain ⟨hnone, rfl⟩ := Reference.fault?_eq_some_iff.mp h
    · exact ⟨_, _, rfl, .quoted hnone, rfl⟩
    · exact ⟨_, _, rfl, .position hnone, rfl⟩
  · rintro ⟨m, name, rfl, hmiss, hproblem⟩
    obtain ⟨problem, offset⟩ := f
    obtain rfl := hproblem
    cases hmiss with
    | quoted h => exact if_pos h
    | position h => exact if_pos h

theorem Part.fault?_mention_eq_some_iff {m : Mention} {name : Text} {offset : ℕ} :
    (Part.mention m offset).fault? position = some ⟨.unknownColumn name, offset⟩ ↔
      m.Misses position name := by
  rw [fault?_eq_some_iff]
  constructor
  · rintro ⟨m, name, h, hmiss, hproblem⟩
    cases h
    cases hproblem
    exact hmiss
  · intro h
    exact ⟨m, name, rfl, h, rfl⟩

theorem Part.fault?_eq_none_iff {p : Part} :
    p.fault? position = none ↔
      ∀ m offset name, p = .mention m offset → ¬ m.Misses position name := by
  constructor
  · rintro h m offset name rfl hmiss
    rw [fault?_mention_eq_some_iff.mpr hmiss] at h
    cases h
  · intro h
    rw [Option.eq_none_iff_forall_ne_some]
    intro f hf
    obtain ⟨m, name, rfl, hmiss, -⟩ := fault?_eq_some_iff.mp hf
    exact h m _ name rfl hmiss

/-- The fault is that of the first mention that has to be a column and is none. -/
theorem findSome?_fault?_eq_some_iff {ps : List Part} {name : Text} {offset : ℕ} :
    ps.findSome? (Part.fault? position) = some ⟨.unknownColumn name, offset⟩ ↔
      ∃ before m after, ps = before ++ .mention m offset :: after ∧ m.Misses position name ∧
        ∀ m' k name', .mention m' k ∈ before → ¬ m'.Misses position name' := by
  rw [List.findSome?_eq_some_iff]
  constructor
  · rintro ⟨before, p, after, rfl, hp, hbefore⟩
    obtain ⟨m, name, rfl, hmiss, hproblem⟩ := Part.fault?_eq_some_iff.mp hp
    cases hproblem
    refine ⟨before, m, after, rfl, hmiss, ?_⟩
    intro m' k name' hmem
    exact Part.fault?_eq_none_iff.mp (hbefore _ hmem) m' k name' rfl
  · rintro ⟨before, m, after, rfl, hmiss, hbefore⟩
    refine ⟨before, _, after, rfl, Part.fault?_mention_eq_some_iff.mpr hmiss, ?_⟩
    intro p hp
    rw [Part.fault?_eq_none_iff]
    rintro m' k name' rfl
    exact hbefore m' k name' hp

theorem exists_findSome?_fault? {ps : List Part} :
    (∃ name offset, ps.findSome? (Part.fault? position) = some ⟨.unknownColumn name, offset⟩) ↔
      ∃ m offset name, .mention m offset ∈ ps ∧ m.Misses position name := by
  constructor
  · rintro ⟨name, offset, h⟩
    obtain ⟨before, m, after, rfl, hmiss, -⟩ := findSome?_fault?_eq_some_iff.mp h
    exact ⟨m, offset, name, by simp, hmiss⟩
  · rintro ⟨m, offset, name, hmem, hmiss⟩
    have hsome : (ps.findSome? (Part.fault? position)).isSome := by
      rw [List.findSome?_isSome_iff]
      exact ⟨_, hmem, by rw [Part.fault?_mention_eq_some_iff.mpr hmiss]; rfl⟩
    obtain ⟨f, hf⟩ := Option.isSome_iff_exists.mp hsome
    obtain ⟨p, -, hp⟩ := List.exists_of_findSome?_eq_some hf
    obtain ⟨m, name, -, -, hproblem⟩ := Part.fault?_eq_some_iff.mp hp
    exact ⟨name, f.offset, by rw [hf, ← hproblem]⟩

/-! ## The run that notes it -/

/-- Whatever was noted before, the run notes this fault after it. -/
def Notes {α : Type} (x : StateM (Option FilterFault) α) (fault : Option FilterFault) : Prop :=
  ∀ noted, (x.run noted).2 = noted.or fault

section

variable {α β : Type} {x : StateM (Option FilterFault) α} {fault later : Option FilterFault}

theorem notes_pure (a : α) : Notes (pure a) none := by
  intro noted
  rw [Option.or_none]
  rfl

theorem Notes.bind {f : α → StateM (Option FilterFault) β} (hx : Notes x fault)
    (hf : ∀ a, Notes (f a) later) : Notes (x >>= f) (fault.or later) := by
  intro noted
  change ((f (x.run noted).1).run (x.run noted).2).2 = _
  rw [hf, hx, Option.or_assoc]

theorem Notes.bind_none {f : α → StateM (Option FilterFault) β} (hx : Notes x fault)
    (hf : ∀ a, Notes (f a) none) : Notes (x >>= f) fault := by
  have h := hx.bind hf
  rwa [Option.or_none] at h

theorem notes_mapM {f : α → StateM (Option FilterFault) β} {g : α → Option FilterFault}
    {as : List α} (h : ∀ a ∈ as, Notes (f a) (g a)) : Notes (as.mapM f) (as.findSome? g) := by
  induction as with
  | nil => exact notes_pure []
  | cons a as ih =>
    obtain ⟨ha, has⟩ := List.forall_mem_cons.mp h
    have hor : (a :: as).findSome? g = (g a).or (as.findSome? g) := by
      rw [List.findSome?_cons]
      cases g a <;> rfl
    rw [List.mapM_cons, hor]
    exact ha.bind fun b => (ih has).bind_none fun bs => notes_pure (b :: bs)

end

theorem notes_notingLookup {r : Reference} (hr : r.quoted || r.name.head? = some '$') :
    Notes (notingLookup position r) (r.fault? position) := by
  -- the name of the block is neither quoted nor a position
  have hblock : (!r.quoted && decide (r.name = blockName)) = false := by
    by_contra h
    simp only [Bool.not_eq_false, Bool.and_eq_true, Bool.not_eq_true', decide_eq_true_eq] at h
    rw [h.1, h.2] at hr
    exact absurd hr (by decide)
  intro noted
  unfold notingLookup Reference.fault?
  rw [hblock, hr]
  cases position r.name r.quoted with
  | none => rfl
  | some i => exact Option.or_none.symm

theorem notes_notingLookup_bare {r : Reference}
    (hr : (r.quoted || r.name.head? = some '$') = false) :
    Notes (notingLookup position r) none := by
  intro noted
  unfold notingLookup
  simp only [hr, Bool.and_false, Bool.false_eq_true, if_false, Option.or_none]
  rfl

theorem notes_firstColumn_bare {offset : ℕ} {candidates : List (Text × Text)}
    (h : ∀ c ∈ candidates, c.1.head? ≠ some '$') :
    Notes (firstColumn (notingLookup position) false offset candidates) none := by
  induction candidates with
  | nil => exact notes_pure none
  | cons candidate candidates ih =>
    obtain ⟨hc, hcs⟩ := List.forall_mem_cons.mp h
    have hbare : (false || decide (candidate.1.head? = some '$')) = false := by simp [hc]
    refine (notes_notingLookup_bare (r := ⟨candidate.1, false, offset⟩) hbare).bind fun found => ?_
    cases found with
    | none => exact ih hcs
    | some i => exact notes_pure _

theorem notes_firstColumn {name : Text} {quoted : Bool} {offset : ℕ}
    (h : quoted || name.head? = some '$') :
    Notes (firstColumn (notingLookup position) quoted offset [(name, [])])
      ((Reference.mk name quoted offset).fault? position) := by
  refine (notes_notingLookup (r := ⟨name, quoted, offset⟩) h).bind_none fun found => ?_
  cases found with
  | none => exact notes_pure _
  | some i => exact notes_pure _

theorem notes_substitutePart {before : Option Char} {rest : Text} {p : Part}
    (h : ∀ m offset, p = .mention m offset → m.Stands before rest) :
    Notes (substitutePart (notingLookup position) p) (p.fault? position) := by
  cases p with
  | plain c => exact notes_pure _
  | mention m offset =>
    have hstands := h m offset rfl
    unfold substitutePart
    refine Notes.bind_none ?_ fun _ => notes_pure _
    cases hstands with
    | quoted => exact notes_firstColumn rfl
    | position => exact notes_firstColumn rfl
    | @bare c name hstart =>
      -- what is looked up for a name starts as the name does
      refine notes_firstColumn_bare ?_
      rintro ⟨first, rest⟩ hmem
      obtain ⟨hsplit, -⟩ := mem_candidates_bare hmem
      cases first with
      | nil => simp
      | cons d first =>
        obtain ⟨rfl, -⟩ := List.cons_eq_cons.mp hsplit
        rintro ⟨⟩
        exact absurd hstart (by decide)

theorem IsParts.stands_of_mem {script : Text} {ps : List Part} {p : Part}
    (h : IsParts none 0 script ps) (hp : p ∈ ps) :
    ∃ before rest, ∀ m offset, p = .mention m offset → m.Stands before rest := by
  obtain ⟨as, bs, rfl⟩ := List.append_of_mem hp
  refine ⟨(as.flatMap Part.text).getLast?.or none, bs.flatMap Part.text, ?_⟩
  rintro m offset rfl
  exact h.stands.2

theorem notes_substitute (script : Text) :
    Notes (substitute (notingLookup position) script)
      ((scriptParts script).findSome? (Part.fault? position)) := by
  rw [substitute_eq_mapM]
  refine Notes.bind_none (notes_mapM fun p hp => ?_) fun _ => notes_pure _
  obtain ⟨before, rest, hp⟩ := (isParts_scriptParts script).stands_of_mem hp
  exact notes_substitutePart hp

/-! ## Compiling -/

theorem run_substitute (script : Text) : (substitute (notingLookup position) script).run none =
    ((scriptParts script).flatMap (Part.replaced position),
      (scriptParts script).findSome? (Part.fault? position)) :=
  Prod.ext (gives_substitute script none) (notes_substitute script none)

section

variable {E : Engine} {expression : Text}

theorem compile_eq_error_iff {name : Text} {offset : ℕ} :
    RowFilter.compile E position expression = .error ⟨.unknownColumn name, offset⟩ ↔
      (scriptParts expression).findSome? (Part.fault? position) =
        some ⟨.unknownColumn name, offset⟩ := by
  rw [RowFilter.compile, run_substitute]
  cases (scriptParts expression).findSome? (Part.fault? position) with
  | some fault => simp
  | none =>
    -- the faults of the engine are in its own words
    dsimp only
    cases E.compile ((scriptParts expression).flatMap (Part.replaced position)) <;> simp

/-- A filter that compiles is what the engine makes of the script with its columns replaced. -/
theorem compile_eq_ok_iff {f : RowFilter} : RowFilter.compile E position expression = .ok f ↔
    (scriptParts expression).findSome? (Part.fault? position) = none ∧
      ∃ p, E.compile ((scriptParts expression).flatMap (Part.replaced position)) = .ok p ∧
        f = RowFilter.ofProgram p := by
  rw [RowFilter.compile, run_substitute]
  cases (scriptParts expression).findSome? (Part.fault? position) with
  | some fault => simp
  | none =>
    dsimp only
    cases E.compile ((scriptParts expression).flatMap (Part.replaced position)) with
    | error fault => simp
    | ok p => simp [eq_comm]

end

end Filter

namespace Columns

open Rollup.Filter

variable {c : Columns} {E : Engine}

theorem rowFilter_eq_error_iff {expression : Text} {fault : FilterFault} :
    c.rowFilter E expression = .error (.compile expression (.filter fault)) ↔
      RowFilter.compile E (fun name quoted => (c.position name quoted).toOption) expression =
        .error fault := by
  unfold rowFilter
  cases RowFilter.compile E _ expression <;> simp [Except.mapError]

/-- The parts of a script are determined. Whatever the engine, a filter has an unknown column exactly
if a mention of a quoted name or of a position is no column, and then the fault is that of the first
such mention. -/
theorem rowFilter_unknownColumn (c : Columns) (E : Engine) (expression : Text) :
    let position := fun name quoted => (c.position name quoted).toOption
    let unknown := fun name offset =>
      Failure.compile expression (.filter ⟨.unknownColumn name, offset⟩)
    ∃ ps, (∀ other, IsParts none 0 expression other ↔ other = ps) ∧
      ((∃ name offset, c.rowFilter E expression = .error (unknown name offset)) ↔
        ∃ m offset name, .mention m offset ∈ ps ∧ m.Misses position name) ∧
      ∀ name offset, c.rowFilter E expression = .error (unknown name offset) ↔
        ∃ before m after, ps = before ++ .mention m offset :: after ∧ m.Misses position name ∧
          (∀ m' k name', .mention m' k ∈ before → ¬ m'.Misses position name') ∧
          expression = before.flatMap Part.text ++ m.text ++ after.flatMap Part.text ∧
          offset = Text.byteSize (before.flatMap Part.text) := by
  intro position unknown
  have herror (name offset) : c.rowFilter E expression = .error (unknown name offset) ↔
      (scriptParts expression).findSome? (Part.fault? position) =
        some ⟨.unknownColumn name, offset⟩ :=
    rowFilter_eq_error_iff.trans compile_eq_error_iff
  refine ⟨scriptParts expression, fun _ => isParts_iff, ?_, ?_⟩
  · simp only [herror]
    exact exists_findSome?_fault?
  · intro name offset
    rw [herror, findSome?_fault?_eq_some_iff]
    have hparts := isParts_scriptParts expression
    constructor
    · rintro ⟨before, m, after, hps, hmiss, hbefore⟩
      rw [hps] at hparts
      have htext := hparts.flatMap_text
      rw [List.flatMap_append, List.flatMap_cons, ← List.append_assoc] at htext
      refine ⟨before, m, after, hps, hmiss, hbefore, htext.symm, ?_⟩
      rw [hparts.stands.1, Nat.zero_add]
    · rintro ⟨before, m, after, hps, hmiss, hbefore, -, -⟩
      exact ⟨before, m, after, hps, hmiss, hbefore⟩

end Columns

end Rollup
