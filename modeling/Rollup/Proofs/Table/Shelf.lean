import Mathlib.Data.List.Nodup
import Rollup.Table.Shelf

/-! # What a shelf keeps

Of all tables that were stored a shelf keeps the last one under every name, in the order in which
the names were first used. Lookups leave it as it is, so that an answer depends on what was stored
before it and on nothing else.
-/

namespace Rollup.Shelf

/-! ## Requests -/

inductive Request where
  | insert (name : Text) (t : Table)
  | resolve (name : Text)

/-- Serves a request. Only a lookup has an answer. -/
def serve (s : Shelf) : Request → Shelf × Option (Except Failure Table)
  | .insert name t => (s.insert name t, none)
  | .resolve name => (s, some (s.resolve name))

/-- Serves one request after the other, and collects what they give. -/
def serveAll (s : Shelf) : List Request → Shelf × List (Option (Except Failure Table))
  | [] => (s, [])
  | r :: rs =>
    let (s, answer) := s.serve r
    let (s, answers) := serveAll s rs
    (s, answer :: answers)

def Request.stored? : Request → Option (Text × Table)
  | insert name t => some (name, t)
  | resolve _ => none

/-- What requests store, under which names. -/
def stored (rs : List Request) : List (Text × Table) := rs.filterMap Request.stored?

theorem serveAll_append (s : Shelf) (rs rs' : List Request) :
    s.serveAll (rs ++ rs') = (((s.serveAll rs).1.serveAll rs').1,
      (s.serveAll rs).2 ++ ((s.serveAll rs).1.serveAll rs').2) := by
  induction rs generalizing s with
  | nil => rfl
  | cons r rs ih => simp [serveAll, ih]

theorem length_serveAll (s : Shelf) (rs : List Request) : (s.serveAll rs).2.length = rs.length := by
  induction rs generalizing s with
  | nil => rfl
  | cons r rs ih => simp [serveAll, ih]

/-! ## What is kept -/

section

variable {before : List (Text × Table)} {name other : Text} {t u : Table} {s : Shelf}

/-- The table is the one that was stored last under the name. -/
def IsLast (before : List (Text × Table)) (name : Text) (t : Table) : Prop :=
  ∃ earlier later, before = earlier ++ (name, t) :: later ∧ name ∉ later.map Prod.fst

theorem isLast_append_self : IsLast (before ++ [(name, t)]) name t := ⟨before, [], rfl, by simp⟩

theorem IsLast.append (h : IsLast before other u) (hne : other ≠ name) :
    IsLast (before ++ [(name, t)]) other u := by
  obtain ⟨earlier, later, rfl, hlater⟩ := h
  exact ⟨earlier, later ++ [(name, t)], by simp, by simpa [hne] using hlater⟩

/-- The shelf holds the last table under every name, in the order of the first uses. -/
structure Keeps (before : List (Text × Table)) (s : Shelf) : Prop where
  distinct : (s.entries.map Prod.fst).Nodup
  names_eq : s.entries.map Prod.fst = (before.map Prod.fst).eraseDups.map some
  last : ∀ name t, (some name, t) ∈ s.entries → IsLast before name t

theorem keeps_empty : Keeps [] {} := ⟨List.nodup_nil, rfl, by simp⟩

theorem Keeps.mem_iff (h : Keeps before s) :
    some name ∈ s.entries.map Prod.fst ↔ name ∈ before.map Prod.fst := by
  rw [h.names_eq, List.mem_map_of_injective fun _ _ => Option.some.inj, List.mem_eraseDups]

/-! ## Storing -/

/-- A table takes the place of one with its name, or else comes last. -/
theorem replaceOrAppend_cases (name : Text) (t : Table) (entries : List (Option Text × Table)) :
    (∃ front old back, entries = front ++ (some name, old) :: back ∧
      replaceOrAppend name t entries = front ++ (some name, t) :: back) ∨
    (some name ∉ entries.map Prod.fst ∧
      replaceOrAppend name t entries = entries ++ [(some name, t)]) := by
  induction entries with
  | nil => exact .inr ⟨by simp, rfl⟩
  | cons entry entries ih =>
    unfold replaceOrAppend
    split
    case isTrue h => exact .inl ⟨[], entry.2, entries, by simp [← h], rfl⟩
    case isFalse h =>
      rcases ih with ⟨front, old, back, rfl, heq⟩ | ⟨hnew, heq⟩
      · exact .inl ⟨entry :: front, old, back, rfl, by rw [heq]; rfl⟩
      · exact .inr ⟨by simpa [Ne.symm h] using hnew, by rw [heq]; rfl⟩

theorem eraseDups_concat_of_mem {names : List Text} (h : name ∈ names) :
    (names ++ [name]).eraseDups = names.eraseDups := by
  simp [List.eraseDups_append, List.removeAll, h]

theorem eraseDups_concat_of_not_mem {names : List Text} (h : name ∉ names) :
    (names ++ [name]).eraseDups = names.eraseDups ++ [name] := by
  simp [List.eraseDups_append, List.removeAll, h, List.eraseDups_cons]

/-- What is stored under a name leaves the last tables under the other names. -/
theorem Keeps.isLast_concat (h : Keeps before s) (hne : some other ≠ some name)
    (hu : (some other, u) ∈ s.entries) : IsLast (before ++ [(name, t)]) other u :=
  (h.last other u hu).append fun heq => hne (congrArg some heq)

theorem Keeps.insert (h : Keeps before s) (name : Text) (t : Table) :
    Keeps (before ++ [(name, t)]) (s.insert name t) := by
  rcases replaceOrAppend_cases name t s.entries with ⟨front, old, back, hold, heq⟩ | ⟨hnew, heq⟩
  · -- the name was used before, and it stands nowhere else
    have hused : name ∈ before.map Prod.fst := h.mem_iff.mp (by simp [hold])
    have hothers : some name ∉ (front ++ back).map Prod.fst := by
      have hdistinct := h.distinct
      rw [hold, List.map_append, List.map_cons, List.nodup_middle, ← List.map_append] at hdistinct
      exact hdistinct.notMem
    have hnames : (s.insert name t).entries.map Prod.fst = s.entries.map Prod.fst := by
      rw [Shelf.insert, heq, hold]
      simp
    constructor
    case distinct => rw [hnames]; exact h.distinct
    case names_eq =>
      rw [hnames, h.names_eq, List.map_append, List.map_singleton, eraseDups_concat_of_mem hused]
    case last =>
      intro other u hu
      have hcases : (some other, u) = (some name, t) ∨ (some other, u) ∈ front ++ back := by
        simpa [Shelf.insert, heq, or_left_comm] using hu
      rcases hcases with hself | hother
      · cases hself
        exact isLast_append_self
      · refine h.isLast_concat (fun he => hothers (he ▸ List.mem_map_of_mem hother)) ?_
        rw [hold]
        exact List.perm_middle.mem_iff.mpr (List.mem_cons_of_mem _ hother)
  · have hunused : name ∉ before.map Prod.fst := fun hmem => hnew (h.mem_iff.mpr hmem)
    have hnames : (s.insert name t).entries.map Prod.fst =
        s.entries.map Prod.fst ++ [some name] := by simp [Shelf.insert, heq]
    constructor
    case distinct => rw [hnames]; exact List.concat_eq_append ▸ h.distinct.concat hnew
    case names_eq =>
      rw [hnames, h.names_eq, List.map_append, List.map_singleton,
        eraseDups_concat_of_not_mem hunused, List.map_append, List.map_singleton]
    case last =>
      intro other u hu
      have hcases : (some other, u) ∈ s.entries ∨ (some other, u) = (some name, t) := by
        simpa [Shelf.insert, heq] using hu
      rcases hcases with hother | hself
      · exact h.isLast_concat (fun he => hnew (he ▸ List.mem_map_of_mem hother)) hother
      · cases hself
        exact isLast_append_self

theorem Keeps.serveAll (h : Keeps before s) (rs : List Request) :
    Keeps (before ++ stored rs) (s.serveAll rs).1 := by
  induction rs generalizing before s with
  | nil => simpa [stored, Shelf.serveAll] using h
  | cons r rs ih =>
    cases r with
    | insert name t =>
      have hstored : before ++ stored (.insert name t :: rs) =
          before ++ [(name, t)] ++ stored rs := List.append_cons _ _ _
      rw [hstored]
      exact ih (h.insert name t)
    | resolve name => exact ih h

/-! ## Looking up -/

/-- The answer to a name after some tables were stored. The empty name asks for the table under the
name that was used first. -/
inductive Answers (before : List (Text × Table)) : Text → Except Failure Table → Prop
  | last {name : Text} {t : Table} (hne : name ≠ []) (h : IsLast before name t) :
      Answers before name (.ok t)
  | unknown {name : Text} (hne : name ≠ []) (h : name ∉ before.map Prod.fst) :
      Answers before name (.error (.tableNotFound name))
  | first {name : Text} {t : Table} (hfirst : (before.map Prod.fst).head? = some name)
      (h : IsLast before name t) : Answers before [] (.ok t)
  | nothing (h : before = []) : Answers before [] (.error (.tableNotFound []))

theorem Keeps.answers_name (h : Keeps before s) (hne : name ≠ []) :
    Answers before name (s.resolve name) := by
  unfold resolve find?
  rw [if_neg hne]
  cases hfind : s.entries.find? fun entry => entry.1 = some name with
  | some entry =>
    obtain ⟨first, t⟩ := entry
    obtain rfl : first = some name := by simpa using List.find?_some hfind
    exact .last hne (h.last name t (List.mem_of_find?_eq_some hfind))
  | none =>
    refine .unknown hne fun hmem => ?_
    obtain ⟨entry, hentry, hname⟩ := List.mem_map.mp (h.mem_iff.mpr hmem)
    simpa [hname] using List.find?_eq_none.mp hfind entry hentry

theorem Keeps.answers_nil (h : Keeps before s) : Answers before [] (s.resolve []) := by
  have hnames := h.names_eq
  unfold resolve find?
  rw [if_pos rfl]
  cases hentries : s.entries with
  | nil =>
    refine .nothing ?_
    have hnone (name : Text) : name ∉ before.map Prod.fst := by
      rw [← h.mem_iff, hentries]
      exact List.not_mem_nil
    simpa using List.eq_nil_iff_forall_not_mem.mpr hnone
  | cons entry entries =>
    cases hstored : before.map Prod.fst with
    | nil => simp [hentries, hstored] at hnames
    | cons name names =>
      obtain ⟨first, t⟩ := entry
      obtain rfl : first = some name := by
        simpa [hentries, hstored, List.eraseDups_cons] using congrArg List.head? hnames
      exact .first (by rw [hstored]; rfl) (h.last name t (by simp [hentries]))

theorem Keeps.answers (h : Keeps before s) (name : Text) : Answers before name (s.resolve name) := by
  by_cases hname : name = []
  · subst hname
    exact h.answers_nil
  · exact h.answers_name hname

theorem Keeps.names (h : Keeps before s) : s.names = (before.map Prod.fst).eraseDups := by
  have hnames : s.names = (s.entries.map Prod.fst).filterMap id := by
    simp [Shelf.names, List.filterMap_map]
  rw [hnames, h.names_eq, List.filterMap_map]
  exact List.filterMap_some

end

/-- However stores and lookups follow each other from the empty shelf on, the names are distinct and
in the order of their first uses, and every lookup is answered by what was stored last before it. -/
theorem serveAll_answers :
    (∀ rs : List Request, (({} : Shelf).serveAll rs).1.names.Nodup ∧
      (({} : Shelf).serveAll rs).1.names = ((stored rs).map Prod.fst).eraseDups) ∧
    ∀ (rs : List Request) (name : Text) (rs' : List Request), ∃ answer,
      (({} : Shelf).serveAll (rs ++ .resolve name :: rs')).2[rs.length]? = some (some answer) ∧
        Answers (stored rs) name answer := by
  have hkeeps (rs : List Request) : Keeps (stored rs) (({} : Shelf).serveAll rs).1 :=
    keeps_empty.serveAll rs
  constructor
  · intro rs
    refine ⟨?_, (hkeeps rs).names⟩
    have hdistinct := (hkeeps rs).distinct
    rw [(hkeeps rs).names_eq] at hdistinct
    rw [(hkeeps rs).names]
    exact hdistinct.of_map _
  · intro rs name rs'
    refine ⟨_, ?_, (hkeeps rs).answers name⟩
    rw [serveAll_append, List.getElem?_append_right (Nat.le_of_eq (length_serveAll _ rs)),
      length_serveAll, Nat.sub_self]
    rfl

end Rollup.Shelf
