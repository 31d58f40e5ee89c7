import Mathlib.Data.List.Forall2
import Rollup.Proofs.Filter.Parts

/-! # The longest column in a name

A bare name is read as the longest part of it that is a column: all of it, or what comes before one
of its dots. What is looked up is written down with the answer, since a lookup may keep a state.
-/

namespace Rollup.Filter

open Text (byteSize)

/-! ## What a mention may be read as -/

/-- A column that a mention may be read as, and what of it stays behind the column. A bare name is
read as none right after a dot, and not as a whole before a parenthesis. -/
inductive Mention.Head : Mention → (column : Text) → (rest : Text) → Prop
  | quoted {name : Text} : Head (.quoted name) name []
  | position {digits : Text} : Head (.position digits) ('$' :: digits) []
  | whole {name : Text} : Head (.bare name false false) name []
  | beforeDot {name rest : Text} {beforeCall : Bool} :
      Head (.bare (name ++ '.' :: rest) false beforeCall) name ('.' :: rest)

theorem mem_dotSplits_iff {t name rest : Text} :
    (name, rest) ∈ dotSplits t ↔ name ++ rest = t ∧ rest.head? = some '.' := by
  constructor
  · exact mem_dotSplits
  · rintro ⟨rfl, hrest⟩
    induction name with
    | nil =>
      cases rest with
      | nil => cases hrest
      | cons c rest =>
        cases hrest
        simp [dotSplits]
    | cons c name ih =>
      rw [List.cons_append, dotSplits]
      split
      · simp [ih]
      · simp [ih]

theorem pairwise_dotSplits (t : Text) :
    (dotSplits t).Pairwise fun a b => b.1.length < a.1.length := by
  induction t with
  | nil => exact .nil
  | cons c t ih =>
    have hlater : ((dotSplits t).map fun p => (c :: p.1, p.2)).Pairwise
        fun a b => b.1.length < a.1.length := by
      rw [List.pairwise_map]
      exact ih.imp fun h => Nat.succ_lt_succ h
    unfold dotSplits
    dsimp only
    split
    · rw [List.pairwise_append]
      refine ⟨hlater, List.pairwise_singleton _ _, ?_⟩
      intro a ha b hb
      obtain rfl := List.mem_singleton.mp hb
      obtain ⟨p, -, rfl⟩ := List.mem_map.mp ha
      simp
    · exact hlater

theorem mem_candidates_iff {m : Mention} {name rest : Text} :
    (name, rest) ∈ m.candidates ↔ m.Head name rest := by
  constructor
  · intro h
    cases m with
    | quoted | position =>
      obtain ⟨rfl, rfl⟩ := Prod.mk.inj (List.mem_singleton.mp h)
      constructor
    | bare t afterDot beforeCall =>
      cases afterDot with
      | true => cases h
      | false =>
        rcases List.mem_append.mp h with h | h
        · cases beforeCall with
          | true => cases h
          | false =>
            obtain ⟨rfl, rfl⟩ := Prod.mk.inj (List.mem_singleton.mp h)
            exact .whole
        · obtain ⟨rfl, hrest⟩ := mem_dotSplits h
          obtain ⟨rest, rfl⟩ := List.head?_eq_some_iff.mp hrest
          exact .beforeDot
  · intro h
    cases h with
    | quoted | position => exact List.mem_singleton.mpr rfl
    | whole => exact List.mem_append_left _ (List.mem_singleton.mpr rfl)
    | beforeDot => exact List.mem_append_right _ (mem_dotSplits_iff.mpr ⟨rfl, rfl⟩)

theorem pairwise_candidates (m : Mention) :
    m.candidates.Pairwise fun a b => b.1.length < a.1.length := by
  cases m with
  | quoted | position => exact List.pairwise_singleton _ _
  | bare t afterDot beforeCall =>
    have hdots := pairwise_dotSplits t
    unfold Mention.candidates
    dsimp only
    split
    · exact .nil
    split
    · exact hdots
    · refine List.pairwise_cons.mpr ⟨?_, hdots⟩
      rintro ⟨name, rest⟩ hmem
      obtain ⟨rfl, hrest⟩ := mem_dotSplits hmem
      obtain ⟨rest, rfl⟩ := List.head?_eq_some_iff.mp hrest
      simp

/-! ## What becomes of a part -/

/-- What was looked up, with the answers. -/
abbrev Record := List (Reference × Option ℕ)

/-- What a part is replaced by. No longer head of a mention is a column than the one that is
replaced, and a mention that stays has no head that is a column. -/
inductive Part.Becomes (record : Record) : Part → Text → Prop
  | plain {c : Char} : Becomes record (.plain c) [c]
  | column {m : Mention} {offset i : ℕ} {name rest : Text} (hhead : m.Head name rest)
      (hfound : (⟨name, m.isQuoted, offset⟩, some i) ∈ record)
      (hlonger : ∀ name' rest', m.Head name' rest' → name.length < name'.length →
        (⟨name', m.isQuoted, offset⟩, none) ∈ record) :
      Becomes record (.mention m offset) (access i ++ rest)
  | kept {m : Mention} {offset : ℕ}
      (hnone : ∀ name rest, m.Head name rest → (⟨name, m.isQuoted, offset⟩, none) ∈ record) :
      Becomes record (.mention m offset) m.text

theorem Part.Becomes.mono {record later : Record} {p : Part} {t : Text} (h : p.Becomes record t)
    (hsub : record ⊆ later) : p.Becomes later t := by
  cases h with
  | plain => exact .plain
  | column hhead hfound hlonger =>
    exact .column hhead (hsub hfound) fun name' rest' h hlt => hsub (hlonger name' rest' h hlt)
  | kept hnone => exact .kept fun name rest h => hsub (hnone name rest h)

/-- The text that a list of candidates gives, if one of them is a column. -/
inductive Chosen (record : Record) (quoted : Bool) (offset : ℕ) (candidates : List (Text × Text)) :
    Option Text → Prop
  | column {name rest : Text} {i : ℕ} (hmem : (name, rest) ∈ candidates)
      (hfound : (⟨name, quoted, offset⟩, some i) ∈ record)
      (hlonger : ∀ c ∈ candidates, name.length < c.1.length →
        (⟨c.1, quoted, offset⟩, none) ∈ record) :
      Chosen record quoted offset candidates (some (access i ++ rest))
  | nothing (hnone : ∀ c ∈ candidates, (⟨c.1, quoted, offset⟩, none) ∈ record) :
      Chosen record quoted offset candidates none

theorem Chosen.cons {record : Record} {quoted : Bool} {offset : ℕ} {candidates : List (Text × Text)}
    {found : Option Text} (h : Chosen record quoted offset candidates found) (c : Text × Text) :
    Chosen ((⟨c.1, quoted, offset⟩, none) :: record) quoted offset (c :: candidates) found := by
  cases h with
  | column hmem hfound hlonger =>
    refine .column (List.mem_cons_of_mem _ hmem) (List.mem_cons_of_mem _ hfound) ?_
    refine List.forall_mem_cons.mpr ⟨fun _ => List.mem_cons_self, ?_⟩
    exact fun d hd hlt => List.mem_cons_of_mem _ (hlonger d hd hlt)
  | nothing hnone =>
    refine .nothing (List.forall_mem_cons.mpr ⟨List.mem_cons_self, ?_⟩)
    exact fun d hd => List.mem_cons_of_mem _ (hnone d hd)

theorem Chosen.becomes {record : Record} {m : Mention} {offset : ℕ} {found : Option Text}
    (h : Chosen record m.isQuoted offset m.candidates found) :
    (Part.mention m offset).Becomes record (found.getD m.text) := by
  cases h with
  | column hmem hfound hlonger =>
    refine .column (mem_candidates_iff.mp hmem) hfound ?_
    intro name' rest' hhead hlt
    exact hlonger (name', rest') (mem_candidates_iff.mpr hhead) hlt
  | nothing hnone =>
    refine .kept ?_
    intro name rest hhead
    exact hnone (name, rest) (mem_candidates_iff.mpr hhead)

/-! ## Runs that are written down -/

/-- A lookup that also writes down what it is asked and what it answers. -/
def recording {m : Type → Type} [Monad m] (lookup : Reference → m (Option ℕ)) (r : Reference) :
    StateT Record m (Option ℕ) := do
  let found ← lookup r
  modify (· ++ [(r, found)])
  return found

section

variable {σ : Type} (lookup : Reference → StateM σ (Option ℕ))

theorem records_recording (r : Reference) :
    Records (recording lookup r) (lookup r) fun added found => added = [(r, found)] :=
  fun _ _ => ⟨_, rfl, rfl⟩

theorem records_firstColumn (quoted : Bool) (offset : ℕ) {candidates : List (Text × Text)}
    (h : candidates.Pairwise fun a b => b.1.length < a.1.length) :
    Records (firstColumn (recording lookup) quoted offset candidates)
      (firstColumn lookup quoted offset candidates) fun added found =>
        (added.map Prod.fst).Sublist (candidates.map fun c => ⟨c.1, quoted, offset⟩) ∧
          Chosen added quoted offset candidates found := by
  induction candidates with
  | nil => exact records_pure ⟨.slnil, .nothing (by simp)⟩
  | cons c candidates ih =>
    obtain ⟨hshorter, hcandidates⟩ := List.pairwise_cons.mp h
    refine (records_recording lookup ⟨c.1, quoted, offset⟩).bind ?_
    rintro found _ rfl
    cases found with
    | none => exact (ih hcandidates).mono fun added found h => ⟨h.1.cons_cons _, h.2.cons c⟩
    | some i =>
      refine records_pure ⟨(List.nil_sublist _).cons_cons _, ?_⟩
      refine .column List.mem_cons_self List.mem_cons_self ?_
      -- the later candidates are shorter
      refine List.forall_mem_cons.mpr ⟨fun hlt => absurd hlt (Nat.lt_irrefl _), ?_⟩
      exact fun d hd hlt => absurd hlt (Nat.lt_asymm (hshorter d hd))

theorem records_substitutePart (p : Part) :
    Records (substitutePart (recording lookup) p) (substitutePart lookup p) fun added t =>
      (added.map Prod.fst).Sublist p.references ∧ p.Becomes added t := by
  cases p with
  | plain c => exact records_pure ⟨.slnil, .plain⟩
  | mention m offset =>
    refine (records_firstColumn lookup m.isQuoted offset (pairwise_candidates m)).bind ?_
    rintro found added ⟨hasked, hchosen⟩
    refine records_pure ?_
    rw [List.append_nil]
    exact ⟨hasked, hchosen.becomes⟩

theorem records_mapM_substitutePart (ps : List Part) :
    Records (ps.mapM (substitutePart (recording lookup))) (ps.mapM (substitutePart lookup))
      fun added ts => (added.map Prod.fst).Sublist (ps.flatMap Part.references) ∧
        List.Forall₂ (Part.Becomes added) ps ts := by
  induction ps with
  | nil => exact records_pure ⟨.slnil, .nil⟩
  | cons p ps ih =>
    rw [List.mapM_cons, List.mapM_cons]
    refine (records_substitutePart lookup p).bind ?_
    rintro t first ⟨hfirst, hp⟩
    refine ih.bind ?_
    rintro ts second ⟨hsecond, hps⟩
    refine records_pure ?_
    rw [List.append_nil, List.map_append, List.flatMap_cons]
    refine ⟨hfirst.append hsecond, .cons (hp.mono (List.subset_append_left _ _)) ?_⟩
    exact hps.imp fun p t h => h.mono (List.subset_append_right _ _)

end

/-! ## What is asked -/

theorem nodup_references (m : Mention) (offset : ℕ) : (Part.mention m offset).references.Nodup := by
  have hne : m.candidates.Pairwise fun a b =>
      Reference.mk a.1 m.isQuoted offset ≠ Reference.mk b.1 m.isQuoted offset := by
    refine (pairwise_candidates m).imp ?_
    intro a b hlt heq
    rw [(Reference.mk.inj heq).1] at hlt
    exact Nat.lt_irrefl _ hlt
  exact List.pairwise_map.mpr hne

theorem flatMap_references_plain (t : Text) :
    (t.map Part.plain).flatMap Part.references = [] := by
  simp [List.flatMap_map, Part.references]

/-- No reference occurs twice in a script. -/
theorem IsParts.nodup_references {before : Option Char} {offset : ℕ} {t : Text} {ps : List Part}
    (h : IsParts before offset t ps) :
    (ps.flatMap Part.references).Nodup ∧ ∀ r ∈ ps.flatMap Part.references, offset ≤ r.offset := by
  induction h with
  | nil => simp
  | @mention _ offset m _ ps hm h ih =>
    obtain ⟨hnodup, hlater⟩ := ih
    have hoffset : ∀ r ∈ (Part.mention m offset).references, r.offset = offset := by
      intro r hr
      obtain ⟨c, -, rfl⟩ := List.mem_map.mp hr
      rfl
    have hpos : 0 < byteSize m.text := by
      obtain ⟨c, u, htext⟩ := List.exists_cons_of_ne_nil hm.text_ne_nil
      have hc := c.utf8Size_pos
      rw [htext, Text.byteSize_cons]
      omega
    rw [List.flatMap_cons, List.nodup_append]
    refine ⟨⟨Filter.nodup_references m offset, hnodup, ?_⟩, ?_⟩
    · rintro r hr s hs rfl
      have hle := hlater r hs
      rw [hoffset r hr] at hle
      omega
    · intro r hr
      rcases List.mem_append.mp hr with hr | hr
      · exact (hoffset r hr).ge
      · exact (Nat.le_add_right _ _).trans (hlater r hr)
  | plain hc hnone h ih =>
    exact ⟨ih.1, fun r hr => (Nat.le_add_right _ _).trans (ih.2 r hr)⟩
  | closed hbody hend h ih =>
    rw [List.flatMap_append, flatMap_references_plain, List.nil_append]
    exact ⟨ih.1, fun r hr => (Nat.le_add_right _ _).trans (ih.2 r hr)⟩
  | unclosed hbody =>
    rw [flatMap_references_plain]
    simp

theorem records_substitute {σ : Type} (lookup : Reference → StateM σ (Option ℕ)) (script : Text) :
    Records (substitute (recording lookup) script) (substitute lookup script) fun added t =>
      (added.map Prod.fst).Nodup ∧
        ∃ ts, List.Forall₂ (Part.Becomes added) (scriptParts script) ts ∧ t = ts.flatten := by
  rw [substitute_eq_mapM, substitute_eq_mapM, map_eq_pure_bind, map_eq_pure_bind]
  refine (records_mapM_substitutePart lookup _).bind ?_
  rintro ts added ⟨hasked, hts⟩
  refine records_pure ?_
  rw [List.append_nil]
  exact ⟨hasked.nodup (isParts_scriptParts script).nodup_references.1, ts, hts, rfl⟩

/-- The parts of a script are determined, and no reference is looked up twice. A bare name right
after a dot stays. Of any other the longest head that is a column is replaced, if there is one. -/
theorem substitute_longest {σ : Type} (lookup : Reference → StateM σ (Option ℕ)) (script : Text)
    (s : σ) :
    ∃ record ps ts,
      ((substitute (recording lookup) script).run []).run s =
          ((((substitute lookup script).run s).1, record), ((substitute lookup script).run s).2) ∧
        (record.map Prod.fst).Nodup ∧ (∀ other, IsParts none 0 script other ↔ other = ps) ∧
        List.Forall₂ (Part.Becomes record) ps ts ∧
        ((substitute lookup script).run s).1 = ts.flatten := by
  obtain ⟨record, ⟨hnodup, ts, hts, hvalue⟩, hrun⟩ := records_substitute lookup script [] s
  exact ⟨record, scriptParts script, ts, hrun, hnodup, fun _ => isParts_iff, hts, hvalue⟩

end Rollup.Filter
