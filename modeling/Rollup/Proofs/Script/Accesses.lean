import Rollup.Proofs.Script.Reading
import Rollup.Proofs.Script.Tokens

/-! # Accesses in the term of a script

An element of the row in a term is read from an access. The row is named by one token, so where the
tokens of an index follow that token, the element has this index.
-/

namespace Rollup.Script

variable {stop i offset : ℕ}

/-! ## Terms in terms -/

/-- `s` stands in a term, and not in the right operand of an operator that skips it. -/
inductive Term.Within (skips : BinaryOperator → Term → Prop) (s : Term) : Term → Prop
  | self : Within skips s s
  | item {ts : List Term} {t : Term} (hmem : t ∈ ts) (h : Within skips s t) :
      Within skips s (.list ts)
  | object {t index : Term} (h : Within skips s t) : Within skips s (.element t index)
  | index {t index : Term} (h : Within skips s index) : Within skips s (.element t index)
  | owner {t : Term} {name : Text} (h : Within skips s t) : Within skips s (.property t name)
  | argument {name : Text} {args : List Term} {t : Term} (hmem : t ∈ args) (h : Within skips s t) :
      Within skips s (.call name args)
  | operand {op : UnaryOperator} {t : Term} (h : Within skips s t) : Within skips s (.unary op t)
  | left {op : BinaryOperator} {lhs rhs : Term} (h : Within skips s lhs) :
      Within skips s (.binary op lhs rhs)
  | right {op : BinaryOperator} {lhs rhs : Term} (hskips : ¬ skips op lhs)
      (h : Within skips s rhs) : Within skips s (.binary op lhs rhs)

/-- `s` is a part of a term. -/
abbrev Term.IsPart (s t : Term) : Prop := Term.Within (fun _ _ => False) s t

theorem Term.Within.isPart {skips : BinaryOperator → Term → Prop} {s t : Term}
    (h : Term.Within skips s t) : s.IsPart t := by
  induction h with
  | self => exact .self
  | item hmem _ ih => exact .item hmem ih
  | object _ ih => exact .object ih
  | index _ ih => exact .index ih
  | owner _ ih => exact .owner ih
  | argument hmem _ ih => exact .argument hmem ih
  | operand _ ih => exact .operand ih
  | left _ ih => exact .left ih
  | right _ _ ih => exact .right id ih

/-! ## Indices of the row -/

/-- The literal that the index of an access is read as. -/
inductive IsIndex (i : ℕ) : Term → Prop
  | int : IsIndex i (.int i)
  | float (x : Float) : IsIndex i (.float x)

/-- The row that is named at the offset has no index in a term but this one. -/
def IndexedAt (i offset : ℕ) (t : Term) : Prop :=
  ∀ index, Term.IsPart (.element (.row offset) index) t → IsIndex i index

theorem indexedAt_list {ts : List Term} (h : ∀ t ∈ ts, IndexedAt i offset t) :
    IndexedAt i offset (.list ts) := by
  intro index hpart
  cases hpart with
  | item hmem hpart => exact h _ hmem index hpart

theorem indexedAt_element {t index : Term} (ht : IndexedAt i offset t)
    (hindex : IndexedAt i offset index) (hrow : t = .row offset → IsIndex i index) :
    IndexedAt i offset (.element t index) := by
  intro index' hpart
  cases hpart with
  | self => exact hrow rfl
  | object hpart => exact ht index' hpart
  | index hpart => exact hindex index' hpart

theorem indexedAt_property {t : Term} (h : IndexedAt i offset t) (name : Text) :
    IndexedAt i offset (.property t name) := by
  intro index hpart
  cases hpart with
  | owner hpart => exact h index hpart

theorem indexedAt_call {args : List Term} (h : ∀ t ∈ args, IndexedAt i offset t) (name : Text) :
    IndexedAt i offset (.call name args) := by
  intro index hpart
  cases hpart with
  | argument hmem hpart => exact h _ hmem index hpart

theorem indexedAt_binary {op : BinaryOperator} {lhs rhs : Term} (hlhs : IndexedAt i offset lhs)
    (hrhs : IndexedAt i offset rhs) : IndexedAt i offset (.binary op lhs rhs) := by
  intro index hpart
  cases hpart with
  | left hpart => exact hlhs index hpart
  | right _ hpart => exact hrhs index hpart

theorem indexedAt_signed {op : UnaryOperator} {t : Term} (h : IndexedAt i offset t) :
    IndexedAt i offset (signed op t) := by
  intro index hpart
  unfold signed at hpart
  split at hpart
  case h_1 => split at hpart <;> cases hpart
  case h_5 =>
    cases hpart with
    | operand hpart => exact h index hpart
  all_goals cases hpart

theorem signed_ne_row (op : UnaryOperator) (t : Term) : signed op t ≠ .row offset := by
  unfold signed
  split
  case h_1 => split <;> exact Term.noConfusion
  all_goals exact Term.noConfusion

/-! ## The index of an access -/

/-- A token before a closing bracket is read alone. -/
theorem primary_of_term {t : PlacedToken} {e : Term} {o : ℕ} {ts us : Tokens}
    (h : Reads (term stop 0 (t :: ⟨.symbol .rbracket, o⟩ :: ts)) e us)
    (hsign : unaryOperator? t.token = none)
    (hone : ∀ x rest, PrimaryStep stop (t :: ⟨.symbol .rbracket, o⟩ :: ts) x rest →
      rest = ⟨.symbol .rbracket, o⟩ :: ts) :
    PrimaryStep stop (t :: ⟨.symbol .rbracket, o⟩ :: ts) e (⟨.symbol .rbracket, o⟩ :: ts) := by
  obtain ⟨lhs, rest, hlhs, htail⟩ := exists_of_term h
  obtain ⟨_, op, _, _, heq, hop, -, -⟩ | ⟨x, after, hx, haccesses⟩ := cases_of_unary hlhs
  · cases heq
    rw [hsign] at hop
    cases hop
  · have hx := primaryStep_of_primary hx
    obtain rfl := hone x after hx
    cases accessStep_of_accesses haccesses
    obtain ⟨rfl, -⟩ | ⟨_, op, _, _, _, heq, hop, -⟩ := cases_of_operators htail
    · exact hx
    · cases heq
      cases hop

/-- The index of an access is read as one literal. -/
theorem isIndex_of_term {o : ℕ} {ts us : Tokens} {index : Term}
    (hstart : StartsIndex i (⟨.symbol .lbracket, o⟩ :: ts))
    (h : Reads (term stop 0 ts) index us) : IsIndex i index := by
  cases hstart with
  | int =>
    cases primary_of_term h rfl fun x rest hx => by cases hx; rfl
    exact .int
  | float =>
    cases primary_of_term h rfl fun x rest hx => by cases hx; rfl
    exact .float _

/-! ## Whole runs of the readers -/

/-- After a term its index follows if it is the row at the offset, and in the term the row has no
other. -/
structure Indexed (i offset : ℕ) (e : Term) (us : Tokens) : Prop where
  rest : IndexFollows i offset us
  row : e = .row offset → StartsIndex i us
  parts : IndexedAt i offset e

theorem indexed_of_ne_row {e : Term} {us : Tokens} (hrow : e ≠ .row offset)
    (hrest : IndexFollows i offset us) (hparts : IndexedAt i offset e) :
    Indexed i offset e us := ⟨hrest, fun h => absurd h hrow, hparts⟩

-- The recursion is that of the readers. Each keeps what is known of the tokens ahead, and of the
-- term that it goes on with.
mutual

theorem indexed_of_term {least : ℕ} {ts us : Tokens} {e : Term}
    (h : Reads (term stop least ts) e us) (hts : IndexFollows i offset ts) :
    Indexed i offset e us := by
  obtain ⟨lhs, rest, hlhs, htail⟩ := exists_of_term h
  have hlt := hlhs.1
  exact indexed_of_operators htail (indexed_of_unary hlhs hts)
termination_by (ts.length, 3)

theorem indexed_of_operators {least : ℕ} {ts us : Tokens} {lhs e : Term}
    (h : Reads (operators stop least lhs ts) e us) (hlhs : Indexed i offset lhs ts) :
    Indexed i offset e us := by
  obtain ⟨rfl, rfl⟩ | ⟨t, op, rhs, vs, rest, rfl, hop, hrhs, htail⟩ := cases_of_operators h
  · exact hlhs
  · have hlt := hrhs.length_lt
    have hrhs := indexed_of_term hrhs hlhs.rest.tail
    exact indexed_of_operators htail (indexed_of_ne_row Term.noConfusion hrhs.rest
      (indexedAt_binary hlhs.parts hrhs.parts))
termination_by (ts.length, 0)
decreasing_by
  all_goals subst_vars
  all_goals simp only [Prod.lex_def, List.length_cons]
  all_goals omega

theorem indexed_of_unary {ts us : Tokens} {e : Term} (h : Reads (unary stop ts) e us)
    (hts : IndexFollows i offset ts) : Indexed i offset e us := by
  obtain ⟨t, op, vs, x, rfl, hop, hx, rfl⟩ | ⟨x, rest, hx, htail⟩ := cases_of_unary h
  · have hx := indexed_of_unary hx hts.tail
    exact indexed_of_ne_row (signed_ne_row op x) hx.rest (indexedAt_signed hx.parts)
  · have hlt := hx.length_lt
    exact indexed_of_accesses htail (indexed_of_primary hx hts)
termination_by (ts.length, 2)

theorem indexed_of_primary {ts us : Tokens} {e : Term} (h : Reads (primary stop ts) e us)
    (hts : IndexFollows i offset ts) : Indexed i offset e us := by
  cases primaryStep_of_primary h with
  | list hes =>
    obtain ⟨hus, hes⟩ := indexed_of_terms hes hts.tail
    exact indexed_of_ne_row Term.noConfusion hus (indexedAt_list hes)
  | parens he =>
    have he := indexed_of_term he hts.tail
    refine ⟨he.rest.tail, fun hrow => ?_, he.parts⟩
    -- a parenthesis is no index
    cases he.row hrow
  | call hargs =>
    obtain ⟨hus, hargs⟩ := indexed_of_terms hargs hts.tail.tail
    exact indexed_of_ne_row Term.noConfusion hus (indexedAt_call hargs _)
  | row o =>
    refine ⟨hts.tail, ?_, fun index hpart => by cases hpart⟩
    rintro ⟨⟩
    exact hts us List.suffix_rfl
  | _ => exact indexed_of_ne_row Term.noConfusion hts.tail fun index hpart => by cases hpart
termination_by (ts.length, 1)

theorem indexed_of_accesses {ts us : Tokens} {e e' : Term} (h : Reads (accesses stop e ts) e' us)
    (he : Indexed i offset e ts) : Indexed i offset e' us := by
  cases accessStep_of_accesses h with
  | index hindex h =>
    have hlt := Nat.lt_of_succ_lt hindex.length_lt
    have hindexed := indexed_of_term hindex he.rest.tail
    exact indexed_of_accesses h (indexed_of_ne_row Term.noConfusion hindexed.rest.tail
      (indexedAt_element he.parts hindexed.parts fun hrow => isIndex_of_term (he.row hrow) hindex))
  | method hargs h =>
    have hlt := hargs.length_lt
    obtain ⟨hrest, hargs⟩ := indexed_of_terms hargs he.rest.tail.tail.tail
    exact indexed_of_accesses h (indexed_of_ne_row Term.noConfusion hrest
      (indexedAt_call (List.forall_mem_cons.mpr ⟨he.parts, hargs⟩) _))
  | property h =>
    exact indexed_of_accesses h (indexed_of_ne_row Term.noConfusion he.rest.tail.tail
      (indexedAt_property he.parts _))
  | none => exact he
termination_by (ts.length, 0)
decreasing_by
  all_goals subst_vars
  all_goals simp only [Prod.lex_def, List.length_cons]
  all_goals omega

theorem indexed_of_terms {closing : Symbol} {ts us : Tokens} {es : List Term}
    (h : Reads (terms stop closing ts) es us) (hts : IndexFollows i offset ts) :
    IndexFollows i offset us ∧ ∀ e ∈ es, IndexedAt i offset e := by
  obtain ⟨t, rfl, -, rfl⟩ | h := cases_of_terms h
  · exact ⟨hts.tail, by simp⟩
  · exact indexed_of_termList h hts
termination_by (ts.length, 5)

theorem indexed_of_termList {closing : Symbol} {ts us : Tokens} {es : List Term}
    (h : Reads (termList stop closing ts) es us) (hts : IndexFollows i offset ts) :
    IndexFollows i offset us ∧ ∀ e ∈ es, IndexedAt i offset e := by
  obtain ⟨e, t, rest, he, ⟨-, rfl, rfl⟩ | ⟨es', -, hes', rfl⟩⟩ := cases_of_termList h
  · have he := indexed_of_term he hts
    exact ⟨he.rest.tail, List.forall_mem_singleton.mpr he.parts⟩
  · have hlt : rest.length + 1 < ts.length := he.length_lt
    have he := indexed_of_term he hts
    obtain ⟨hus, hes'⟩ := indexed_of_terms hes' he.rest.tail
    exact ⟨hus, List.forall_mem_cons.mpr ⟨he.parts, hes'⟩⟩
termination_by (ts.length, 4)

end

/-- In the term of a script with an access, the row that the access names has no other index. -/
theorem indexedAt_of_read {before after : Text} {e : Term}
    (h : Term.read (before ++ Filter.access i ++ after) = .ok e) :
    IndexedAt i (Text.byteSize before) e := by
  unfold Term.read at h
  obtain ⟨ts, hts, h⟩ := exists_of_bind_eq_ok h
  obtain ⟨⟨⟨e', rest⟩, hrest⟩, hread, h⟩ := exists_of_bind_eq_ok h
  dsimp only at h
  split at h
  case h_1 =>
    cases h
    exact (indexed_of_term ⟨hrest, hread⟩ (indexFollows_of_readTokens hts)).parts
  case h_2 => cases h

end Rollup.Script
