import Rollup.Proofs.Filter.Mentions

/-! # Substitution piece by piece

A script is substituted by its pieces: literals stay, and each text outside is substituted as a
script of its own, with the offsets of the whole. Nothing is looked up but references outside
literals, from left to right.
-/

namespace Rollup.Filter

open Text (byteSize)

/-! ## Moved offsets -/

/-- The reference, `k` bytes further on. -/
def Reference.shift (k : Nat) (r : Reference) : Reference := { r with offset := k + r.offset }

def Part.shift (k : Nat) : Part → Part
  | .plain c => .plain c
  | .mention m offset => .mention m (k + offset)

theorem parts_shift (k offset : Nat) (before : Option Char) (t : Text) :
    parts (k + offset) before t = (parts offset before t).map (Part.shift k) := by
  fun_induction parts offset before t with
  | case1 => rw [parts]; rfl
  | case2 offset before c t hm ih =>
    rw [parts_of_none hm, List.map_cons, ← ih, Nat.add_assoc]
    rfl
  | case3 offset before c t m hm ih =>
    rw [parts_of_some hm, List.map_cons, ← ih, Nat.add_assoc]
    rfl

section

variable {m : Type → Type} [Monad m] (lookup : Reference → m (Option Nat))

theorem firstColumn_shift (k : Nat) (quoted : Bool) (offset : Nat)
    (candidates : List (Text × Text)) :
    firstColumn lookup quoted (k + offset) candidates =
      firstColumn (fun r => lookup (r.shift k)) quoted offset candidates := by
  induction candidates with
  | nil => rfl
  | cons candidate candidates ih =>
    unfold firstColumn
    rw [ih]
    rfl

theorem substitutePart_shift (k : Nat) (p : Part) :
    substitutePart lookup (p.shift k) = substitutePart (fun r => lookup (r.shift k)) p := by
  cases p with
  | plain c => rfl
  | mention n offset =>
    simp only [Part.shift, substitutePart, firstColumn_shift]

theorem substituteOutside_shift [LawfulMonad m] (k offset : Nat) (t : Text) :
    substituteOutside lookup (k + offset) t =
      substituteOutside (fun r => lookup (r.shift k)) offset t := by
  have hparts : (substitutePart lookup ∘ Part.shift k) =
      substitutePart fun r => lookup (r.shift k) := funext (substitutePart_shift lookup k)
  unfold substituteOutside
  rw [parts_shift, List.mapM_map, hparts]

/-! ## Pieces -/

theorem substitute_of_outside [LawfulMonad m] {t : Text} (ht : '"' ∉ t) :
    substitute lookup t = substituteOutside lookup 0 t := by
  unfold substitute
  by_cases hne : t = []
  · subst hne
    simp [cut, substitutePieces, substituteOutside, parts]
  · have hcut : cut (t ++ []) = .outside t :: cut [] := cut_outside hne ht (by simp)
    rw [List.append_nil, cut] at hcut
    rw [hcut]
    simp [substitutePieces]

/-- The substitution in one piece, which starts at an offset of the script. -/
def substitutePlaced (lookup : Reference → m (Option Nat)) : Nat × Piece → m Text
  | (_, .literal t) => pure t
  | (offset, .outside t) => substitute (fun r => lookup (r.shift offset)) t

theorem substitutePieces_eq_mapM [LawfulMonad m] {script : Text} {pieces : List Piece}
    (h : IsCut script pieces) (offset : Nat) :
    substitutePieces lookup offset pieces =
      List.flatten <$> (placed offset pieces).mapM (substitutePlaced lookup) := by
  induction h generalizing offset with
  | nil => simp [substitutePieces, placed]
  | outside hne ht hrest h ih =>
    have hpiece := substituteOutside_shift lookup offset 0
    rw [Nat.add_zero] at hpiece
    simp [substitutePieces, placed, substitutePlaced, substitute_of_outside _ ht, hpiece, ih,
      Piece.text]
  | closed hbody hend h ih => simp [substitutePieces, placed, substitutePlaced, ih, Piece.text]
  | unclosed hbody => simp [substitutePieces, placed, substitutePlaced]

end

/-! ## What is looked up -/

/-- A lookup that also writes down what it is asked. -/
def logging {m : Type → Type} [Monad m] (lookup : Reference → m (Option Nat)) (r : Reference) :
    StateT (List Reference) m (Option Nat) := do
  modify (· ++ [r])
  lookup r

section

variable {σ γ α β : Type}

/-- The run `x` does what `y` does. What it writes down and its value satisfy the condition. -/
def Records (x : StateT (List γ) (StateM σ) α) (y : StateM σ α) (post : List γ → α → Prop) : Prop :=
  ∀ log s, ∃ added, post added (y.run s).1 ∧
    (x.run log).run s = (((y.run s).1, log ++ added), (y.run s).2)

theorem records_pure {a : α} {post : List γ → α → Prop} (h : post [] a) :
    Records (pure a : StateT (List γ) (StateM σ) α) (pure a) post := by
  intro log s
  refine ⟨[], h, ?_⟩
  rw [List.append_nil]
  rfl

section

variable {x : StateT (List γ) (StateM σ) α} {y : StateM σ α} {p q : List γ → α → Prop}

theorem Records.bind {f : α → StateT (List γ) (StateM σ) β} {g : α → StateM σ β}
    {q : List γ → β → Prop} (hx : Records x y p)
    (hf : ∀ a first, p first a → Records (f a) (g a) fun second => q (first ++ second)) :
    Records (x >>= f) (y >>= g) q := by
  intro log s
  obtain ⟨first, hfirst, hrun⟩ := hx log s
  obtain ⟨second, hsecond, hrun'⟩ := hf _ first hfirst (log ++ first) (y.run s).2
  refine ⟨first ++ second, hsecond, ?_⟩
  rw [List.append_assoc] at hrun'
  rw [StateT.run_bind, StateT.run_bind, hrun]
  exact hrun'

theorem Records.mono (hx : Records x y p) (h : ∀ added a, p added a → q added a) :
    Records x y q := by
  intro log s
  obtain ⟨added, hadded, hrun⟩ := hx log s
  exact ⟨added, h _ _ hadded, hrun⟩

end

/-- The run `x` does what `y` does, and writes down some of `allowed`, in this order. -/
def Logs (x : StateT (List Reference) (StateM σ) α) (y : StateM σ α) (allowed : List Reference) :
    Prop :=
  ∀ log s, ∃ asked : List Reference, asked.Sublist allowed ∧
    (x.run log).run s = (((y.run s).1, log ++ asked), (y.run s).2)

variable {x : StateT (List Reference) (StateM σ) α} {y : StateM σ α} {asked later : List Reference}

theorem logs_iff_records : Logs x y asked ↔ Records x y fun added _ => added.Sublist asked :=
  Iff.rfl

theorem logs_pure (a : α) :
    Logs (pure a : StateT (List Reference) (StateM σ) α) (pure a : StateM σ α) [] :=
  logs_iff_records.mpr (records_pure .slnil)

theorem Logs.bind {f : α → StateT (List Reference) (StateM σ) β} {g : α → StateM σ β}
    (hx : Logs x y asked) (hf : ∀ a, Logs (f a) (g a) later) :
    Logs (x >>= f) (y >>= g) (asked ++ later) := by
  rw [logs_iff_records] at hx ⊢
  refine hx.bind fun a first hfirst => ?_
  exact (logs_iff_records.mp (hf a)).mono fun second _ hsecond => hfirst.append hsecond

theorem Logs.mono (hx : Logs x y asked) (h : asked.Sublist later) : Logs x y later := by
  rw [logs_iff_records] at hx ⊢
  exact hx.mono fun added _ hadded => hadded.trans h

theorem Logs.map {f : α → β} (hx : Logs x y asked) :
    Logs (x >>= fun a => pure (f a)) (y >>= fun a => pure (f a)) asked := by
  have h := hx.bind fun a => logs_pure (f a)
  rwa [List.append_nil] at h

theorem logs_mapM {f : α → StateT (List Reference) (StateM σ) β} {g : α → StateM σ β}
    {calls : α → List Reference} (h : ∀ a, Logs (f a) (g a) (calls a)) (as : List α) :
    Logs (as.mapM f) (as.mapM g) (as.flatMap calls) := by
  induction as with
  | nil => exact logs_pure []
  | cons a as ih =>
    rw [List.mapM_cons, List.mapM_cons, List.flatMap_cons]
    exact (h a).bind fun b => ih.map

variable (lookup : Reference → StateM σ (Option Nat))

theorem logs_logging (r : Reference) : Logs (logging lookup r) (lookup r) [r] :=
  fun _ _ => ⟨[r], List.Sublist.refl _, rfl⟩

theorem logs_firstColumn (quoted : Bool) (offset : Nat) (candidates : List (Text × Text)) :
    Logs (firstColumn (logging lookup) quoted offset candidates)
      (firstColumn lookup quoted offset candidates)
      (candidates.map fun (name, _) => ⟨name, quoted, offset⟩) := by
  induction candidates with
  | nil => exact logs_pure none
  | cons candidate candidates ih =>
    obtain ⟨name, rest⟩ := candidate
    apply (logs_logging lookup ⟨name, quoted, offset⟩).bind
    intro found
    cases found with
    | none => exact ih
    | some position =>
      -- the later candidates are not asked for
      exact (logs_pure (some (access position ++ rest))).mono (List.nil_sublist _)

theorem logs_substitutePart (p : Part) :
    Logs (substitutePart (logging lookup) p) (substitutePart lookup p) p.references := by
  cases p with
  | plain c => exact logs_pure [c]
  | mention n offset => exact (logs_firstColumn lookup n.isQuoted offset n.candidates).map

theorem logs_substitutePieces (offset : Nat) (pieces : List Piece) :
    Logs (substitutePieces (logging lookup) offset pieces) (substitutePieces lookup offset pieces)
      ((placed offset pieces).flatMap Piece.references) := by
  induction pieces generalizing offset with
  | nil => exact logs_pure []
  | cons p pieces ih =>
    cases p with
    | literal t => exact (ih _).map
    | outside t =>
      have hparts := logs_mapM (logs_substitutePart lookup) (parts offset none t)
      exact hparts.map.bind fun replaced => (ih _).map

/-! ## A lookup that finds nothing -/

/-- In every state the run gives this value, and writes all of `asked` down. -/
def Asks (x : StateT (List Reference) (StateM σ) α) (a : α) (asked : List Reference) : Prop :=
  ∀ log s, ((x.run log).run s).1 = (a, log ++ asked)

theorem asks_pure (a : α) : Asks (pure a : StateT (List Reference) (StateM σ) α) a [] := by
  intro log s
  rw [List.append_nil]
  rfl

theorem Asks.bind {f : α → StateT (List Reference) (StateM σ) β} {a : α} {b : β}
    (hx : Asks x a asked) (hf : Asks (f a) b later) : Asks (x >>= f) b (asked ++ later) := by
  intro log s
  have hsecond := hf (log ++ asked) ((x.run log).run s).2
  rw [List.append_assoc] at hsecond
  change (((f ((x.run log).run s).1.1).run ((x.run log).run s).1.2).run ((x.run log).run s).2).1 = _
  rw [hx log s]
  exact hsecond

theorem Asks.map {f : α → β} {a : α} (hx : Asks x a asked) :
    Asks (x >>= fun a => pure (f a)) (f a) asked := by
  have h : Asks (x >>= fun a => pure (f a)) (f a) (asked ++ []) := hx.bind (asks_pure (f a))
  rwa [List.append_nil] at h

theorem asks_mapM {f : α → StateT (List Reference) (StateM σ) β} {g : α → β}
    {calls : α → List Reference} (h : ∀ a, Asks (f a) (g a) (calls a)) (as : List α) :
    Asks (as.mapM f) (as.map g) (as.flatMap calls) := by
  induction as with
  | nil => exact asks_pure []
  | cons a as ih =>
    rw [List.mapM_cons, List.flatMap_cons]
    exact (h a).bind ih.map

section

variable {lookup} (hnone : ∀ r s, ((lookup r).run s).1 = none)

include hnone

theorem asks_logging (r : Reference) : Asks (logging lookup r) none [r] :=
  fun log s => congrArg (·, log ++ [r]) (hnone r s)

theorem asks_firstColumn (quoted : Bool) (offset : Nat) (candidates : List (Text × Text)) :
    Asks (firstColumn (logging lookup) quoted offset candidates) none
      (candidates.map fun (name, _) => ⟨name, quoted, offset⟩) := by
  induction candidates with
  | nil => exact asks_pure none
  | cons candidate candidates ih => exact (asks_logging hnone _).bind ih

theorem asks_substitutePart (p : Part) :
    Asks (substitutePart (logging lookup) p) p.text p.references := by
  cases p with
  | plain c => exact asks_pure [c]
  | mention n offset => exact (asks_firstColumn hnone n.isQuoted offset n.candidates).map

theorem asks_substituteOutside (offset : Nat) (t : Text) :
    Asks (substituteOutside (logging lookup) offset t) t
      ((parts offset none t).flatMap Part.references) := by
  have htext := flatMap_text_parts offset none t
  rw [List.flatMap_def] at htext
  have hparts := asks_mapM (asks_substitutePart hnone) (parts offset none t)
  have hflatten := hparts.map (f := List.flatten)
  rwa [htext] at hflatten

theorem asks_substitutePieces (offset : Nat) (pieces : List Piece) :
    Asks (substitutePieces (logging lookup) offset pieces) (pieces.flatMap Piece.text)
      ((placed offset pieces).flatMap Piece.references) := by
  induction pieces generalizing offset with
  | nil => exact asks_pure []
  | cons p pieces ih =>
    cases p with
    | literal t => exact (ih _).map
    | outside t => exact (asks_substituteOutside hnone offset t).bind (ih _).map

end

/-! ## The whole script -/

/-- What a substitution that starts in the state `s` looks up. -/
def lookedUp (script : Text) (s : σ) : List Reference :=
  (((substitute (logging lookup) script).run []).run s).1.2

theorem run_logging (script : Text) (s : σ) :
    ((substitute (logging lookup) script).run []).run s =
        ((((substitute lookup script).run s).1, lookedUp lookup script s),
          ((substitute lookup script).run s).2) ∧
      (lookedUp lookup script s).Sublist (references (cut script)) := by
  obtain ⟨first, hfirst, hrun⟩ := logs_substitutePieces lookup 0 (cut script) [] s
  have hfirstRun : lookedUp lookup script s = first := congrArg (·.1.2) hrun
  rw [hfirstRun]
  exact ⟨hrun, hfirst⟩

/-- The pieces of a script are determined. Literals stay in their places, and what is outside is
substituted by itself. What is asked is written outside literals, in ascending order of the offsets.
If nothing is found, everything is asked and the script stays as it is. -/
theorem substitute_pieces (script : Text) :
    ∃ pieces, (∀ other, IsCut script other ↔ other = pieces) ∧
      substitute lookup script =
        List.flatten <$> (placed 0 pieces).mapM (substitutePlaced lookup) ∧
      (∀ s, ((substitute (logging lookup) script).run []).run s =
          ((((substitute lookup script).run s).1, lookedUp lookup script s),
            ((substitute lookup script).run s).2) ∧
        (lookedUp lookup script s).Pairwise (·.offset ≤ ·.offset) ∧
        ∀ r ∈ lookedUp lookup script s, r.WellFormed ∧ r.StandsIn pieces) ∧
      ((∀ r s, ((lookup r).run s).1 = none) → ∀ s,
        ((substitute lookup script).run s).1 = script ∧
          lookedUp lookup script s = references pieces) := by
  have hpieces := substitutePieces_eq_mapM lookup (isCut_cut script) 0
  refine ⟨cut script, fun _ => isCut_iff, hpieces, ?_, ?_⟩
  · intro s
    obtain ⟨hrun, hasked⟩ := run_logging lookup script s
    refine ⟨hrun, (pairwise_references_placed 0 _).sublist hasked, ?_⟩
    intro r hr
    exact of_mem_references_pieces (hasked.subset hr)
  · intro hnone s
    obtain ⟨hrun, -⟩ := run_logging lookup script s
    have hall := asks_substitutePieces hnone 0 (cut script) [] s
    rw [(isCut_cut script).flatMap_text] at hall
    have hboth := (congrArg Prod.fst hrun).symm.trans hall
    exact Prod.mk.inj hboth

/-- The first literal has an escaped quote in it, and the last one is not closed. -/
theorem substitute_pieces_nothing_found :
    let lookup : Reference → StateM Nat (Option Nat) := fun _ => do
      modify (· + 1)
      return none
    let script := "é == \"\\\"x\" + 'b c'\"$2".toList
    (∀ r s, ((lookup r).run s).1 = none) ∧ IsCut script [.outside "é == ".toList,
      .literal "\"\\\"x\"".toList, .outside " + 'b c'".toList, .literal "\"$2".toList] ∧
      ∀ s, ((substitute lookup script).run s).1 = script ∧
        lookedUp lookup script s = [⟨"é".toList, false, 0⟩, ⟨"b c".toList, true, 14⟩] := by
  intro lookup script
  have hnone : ∀ r s, ((lookup r).run s).1 = none := fun _ _ => rfl
  have hcut : cut script = [.outside "é == ".toList, .literal "\"\\\"x\"".toList,
      .outside " + 'b c'".toList, .literal "\"$2".toList] := by
    simp [script, cut, splitLiteral]
  obtain ⟨pieces, hpieces, -, -, hsame⟩ := substitute_pieces lookup script
  obtain rfl := (hpieces _).mp (isCut_cut script)
  have hreferences : references (cut script) =
      [⟨"é".toList, false, 0⟩, ⟨"b c".toList, true, 14⟩] := by
    have hname : isNameStart 'é' = true := by decide
    have hblank : isNameStart ' ' = false ∧ isNamePart ' ' = false := by decide
    have hother : isNameStart '=' = false ∧ isNameStart '+' = false := by decide
    have hcall : opensCall [' ', '=', '=', ' '] = false := by decide
    rw [hcut]
    simp [references, placed, Piece.references, Piece.text, Part.references, parts, mention?,
      Mention.candidates, Mention.text, Mention.isQuoted, dotSplits, hname, hblank, hother, hcall,
      Char.utf8Size]
  rw [hreferences] at hsame
  exact ⟨hnone, isCut_iff.mpr hcut.symm, hsame hnone⟩

end

end Rollup.Filter
