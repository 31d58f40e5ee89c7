import Rollup.Format.Fraction
import Rollup.Proofs.Double.Operations

/-! # The search for a fraction

A run of the search takes one turn after another: the whole part of what is left gives the next
convergents, and the reciprocal of the rest is what is left then. From the second turn on the
quotient is at least one, so that the denominators do not decrease. The determinant of two
successive convergents only changes its sign, so that every fraction on the way is in lowest terms.
-/

namespace Rollup

/-! ## Words that wrap around -/

namespace Word

theorem fits_iff {n : ℤ} : fits n ↔ -2 ^ 63 ≤ n ∧ n < 2 ^ 63 := by
  rw [fits, Bool.and_eq_true, decide_eq_true_iff, decide_eq_true_iff]
  rfl

theorem ofInt?_eq_some_iff {n m : ℤ} : ofInt? n = some m ↔ fits n ∧ m = n := by
  unfold ofInt?
  split
  case isTrue hfits => simp [hfits, eq_comm]
  case isFalse hfits => simp [hfits]

theorem toInt_ofInt_eq_iff {n : ℤ} : (Int64.ofInt n).toInt = n ↔ fits n := by
  rw [fits_iff]
  constructor
  · intro h
    rw [← h]
    exact ⟨Int64.le_toInt _, Int64.toInt_lt _⟩
  · rintro ⟨hlow, hhigh⟩
    exact Int64.toInt_ofInt_of_le hlow hhigh

/-- The product of `a` and `m`, and its sum with `b`, are the same on words that wrap around. -/
structure IsExact (a m b : ℤ) : Prop where
  product : (Int64.ofInt a * Int64.ofInt m).toInt = a * m
  sum : (Int64.ofInt a * Int64.ofInt m + Int64.ofInt b).toInt = a * m + b

theorem isExact_iff {a m b : ℤ} : IsExact a m b ↔ fits (a * m) ∧ fits (a * m + b) := by
  rw [← toInt_ofInt_eq_iff, ← toInt_ofInt_eq_iff, Int64.ofInt_add, Int64.ofInt_mul]
  exact ⟨fun h => ⟨h.product, h.sum⟩, fun ⟨hproduct, hsum⟩ => ⟨hproduct, hsum⟩⟩

end Word

namespace Fraction

open Number

/-! ## Convergents -/

namespace Convergents

/-- The convergents after the quotient `a`. -/
def extend (c : Convergents) (a : ℤ) : Convergents := ⟨c.h₁, a * c.h₁ + c.h₀, c.k₁, a * c.k₁ + c.k₀⟩

def det (c : Convergents) : ℤ := c.h₁ * c.k₀ - c.h₀ * c.k₁

structure IsWords (c : Convergents) : Prop where
  h₀ : Word.fits c.h₀
  h₁ : Word.fits c.h₁
  k₀ : Word.fits c.k₀
  k₁ : Word.fits c.k₁

theorem det_start : start.det = 1 := rfl

theorem det_extend (c : Convergents) (a : ℤ) : (c.extend a).det = -c.det := by
  simp only [det, extend]
  ring

theorem isCoprime_of_isUnit_det {c : Convergents} (h : IsUnit c.det) : IsCoprime c.h₁ c.k₁ := by
  obtain ⟨u, hu⟩ := h.exists_left_inv
  refine ⟨u * c.k₀, -(u * c.h₀), ?_⟩
  rw [← hu, det]
  ring

theorem IsWords.extend {c : Convergents} (h : c.IsWords) {a : ℤ}
    (hnumerator : Word.IsExact a c.h₁ c.h₀) (hdenominator : Word.IsExact a c.k₁ c.k₀) :
    (c.extend a).IsWords :=
  ⟨h.h₁, (Word.isExact_iff.mp hnumerator).2, h.k₁, (Word.isExact_iff.mp hdenominator).2⟩

/-- There are next convergents exactly when nothing wraps around. -/
theorem next?_eq_some_iff {c c' : Convergents} {a : ℤ} : c.next? a = some c' ↔
    (Word.IsExact a c.h₁ c.h₀ ∧ Word.IsExact a c.k₁ c.k₀) ∧ c' = c.extend a := by
  simp only [next?, Option.bind_eq_bind, Option.bind_eq_some_iff, Option.some_inj,
    Word.ofInt?_eq_some_iff, Word.isExact_iff, extend]
  constructor
  · rintro ⟨_, ⟨hp, rfl⟩, _, ⟨hh, rfl⟩, _, ⟨hq, rfl⟩, _, ⟨hk, rfl⟩, rfl⟩
    exact ⟨⟨⟨hp, hh⟩, hq, hk⟩, rfl⟩
  · rintro ⟨⟨⟨hp, hh⟩, hq, hk⟩, rfl⟩
    exact ⟨_, ⟨hp, rfl⟩, _, ⟨hh, rfl⟩, _, ⟨hq, rfl⟩, _, ⟨hk, rfl⟩, rfl⟩

end Convergents

/-! ## Turns -/

/-- One turn of the search: a quotient, and the convergents before it and after it. -/
@[ext]
structure Turn where
  quotient : ℤ
  before : Convergents
  after : Convergents

namespace Turn

def fraction (t : Turn) : ℤ × ℤ := (t.after.h₁, t.after.k₁)

/-- The turn that the search takes at the convergents `c` when `x` is left of the expansion. -/
structure Takes (t : Turn) (x : Float) (c : Convergents) : Prop where
  before : t.before = c
  finite : (floor x).isFinite
  bounded : ¬maxQuotient < (floor x).abs
  quotient : t.quotient = toInt (floor x)
  next : t.before.next? t.quotient = some t.after
  small : t.after.k₁ ≤ maxDenominator

/-- The turn extends the convergents by the quotient, all of them words, and no product and no sum
wraps around. -/
structure IsExact (t : Turn) : Prop where
  quotient : Word.fits t.quotient
  before : t.before.IsWords
  numerator : Word.IsExact t.quotient t.before.h₁ t.before.h₀
  denominator : Word.IsExact t.quotient t.before.k₁ t.before.k₀
  after : t.after = t.before.extend t.quotient

end Turn

/-- The turns of a search that finds a fraction, from the convergents `c` on and with `x` left of
the expansion. Only the last fraction is close to `n`, and there is a rest until then. -/
inductive Run (n : Float) : Float → Convergents → List Turn → Prop
  | found {x : Float} {c : Convergents} {t : Turn} (hturn : t.Takes x c)
      (hclose : isClose n t.after.h₁ t.after.k₁) : Run n x c [t]
  | next {x : Float} {c : Convergents} {t : Turn} {turns : List Turn} (hturn : t.Takes x c)
      (hfar : isClose n t.after.h₁ t.after.k₁ = false) (hrest : (x - floor x == 0) = false)
      (hrun : Run n (1 / (x - floor x)) t.after turns) : Run n x c (t :: turns)

section Search

variable {n x : Float} {c : Convergents} {r : ℤ × ℤ} {steps : ℕ}

/-- A search takes a turn, and then it has found a close fraction or goes on with the rest. -/
theorem search_succ_eq_some_iff : search n (steps + 1) x c = some r ↔
    ∃ t : Turn, t.Takes x c ∧ (isClose n t.after.h₁ t.after.k₁ ∧ t.fraction = r ∨
      isClose n t.after.h₁ t.after.k₁ = false ∧ (x - floor x == 0) = false ∧
        search n steps (1 / (x - floor x)) t.after = some r) := by
  simp only [search, Option.bind_eq_bind, Option.bind_none, Option.ite_none_left_eq_some,
    Option.bind_eq_some_iff, Bool.or_eq_true, decide_eq_true_iff, Bool.not_eq_true', not_or,
    Bool.not_eq_false]
  constructor
  · rintro ⟨⟨hbounded, hfinite⟩, c', hnext, hsmall, hs⟩
    refine ⟨⟨toInt (floor x), c, c'⟩, ⟨rfl, hfinite, hbounded, rfl, hnext, not_lt.mp hsmall⟩, ?_⟩
    split at hs
    case isTrue hclose => exact .inl ⟨hclose, Option.some.inj hs⟩
    case isFalse hfar =>
      obtain ⟨hrest, hs⟩ := Option.ite_none_left_eq_some.mp hs
      exact .inr ⟨Bool.eq_false_iff.mpr hfar, Bool.eq_false_iff.mpr hrest, hs⟩
  · rintro ⟨t, hturn, hs⟩
    have hnext : c.next? (toInt (floor x)) = some t.after := by
      rw [← hturn.before, ← hturn.quotient, hturn.next]
    refine ⟨⟨hturn.bounded, hturn.finite⟩, t.after, hnext, not_lt.mpr hturn.small, ?_⟩
    rcases hs with ⟨hclose, rfl⟩ | ⟨hfar, hrest, hs⟩
    · rw [if_pos hclose, Turn.fraction]
    · rw [if_neg (Bool.eq_false_iff.mp hfar), if_neg (Bool.eq_false_iff.mp hrest), hs]

/-- A search finds a fraction exactly when a run of as many turns at most ends in it. -/
theorem search_eq_some_iff : search n steps x c = some r ↔ ∃ turns,
    Run n x c turns ∧ turns.length ≤ steps ∧ turns.getLast?.map Turn.fraction = some r := by
  induction steps generalizing x c with
  | zero =>
    constructor
    · intro hs
      cases hs
    · rintro ⟨turns, hrun, hlength, -⟩
      cases hrun <;> cases hlength
  | succ steps ih =>
    rw [search_succ_eq_some_iff]
    constructor
    · rintro ⟨t, hturn, ⟨hclose, rfl⟩ | ⟨hfar, hrest, hs⟩⟩
      · exact ⟨[t], .found hturn hclose, Nat.le_add_left .., rfl⟩
      · obtain ⟨turns, hrun, hlength, hlast⟩ := ih.mp hs
        refine ⟨t :: turns, .next hturn hfar hrest hrun, Nat.succ_le_succ hlength, ?_⟩
        -- A run is not empty, so that its last turn is still the last one.
        cases hrun <;> exact hlast
    · rintro ⟨turns, hrun, hlength, hlast⟩
      cases hrun with
      | @found _ _ t hturn hclose => exact ⟨t, hturn, .inl ⟨hclose, Option.some.inj hlast⟩⟩
      | @next _ _ t turns hturn hfar hrest hrun =>
        have hfewer := Nat.le_of_succ_le_succ hlength
        refine ⟨t, hturn, .inr ⟨hfar, hrest, ih.mpr ⟨turns, hrun, hfewer, ?_⟩⟩⟩
        cases hrun <;> exact hlast

theorem Turn.Takes.unique {t t' : Turn} (h : t.Takes x c) (h' : t'.Takes x c) : t' = t := by
  have hquotient : t'.quotient = t.quotient := by rw [h'.quotient, h.quotient]
  have hbefore : t'.before = t.before := by rw [h'.before, h.before]
  have hafter : some t'.after = some t.after := by rw [← h'.next, ← h.next, hquotient, hbefore]
  exact Turn.ext hquotient hbefore (Option.some.inj hafter)

/-- A search has one run. -/
theorem Run.unique {turns turns' : List Turn} (h : Run n x c turns) (h' : Run n x c turns') :
    turns' = turns := by
  induction h generalizing turns' with
  | found hturn hclose =>
    cases h' with
    | found hturn' => rw [hturn.unique hturn']
    | next hturn' hfar =>
      rw [hturn.unique hturn', hclose] at hfar
      cases hfar
  | next hturn hfar _ _ ih =>
    cases h' with
    | found hturn' hclose =>
      rw [hturn.unique hturn', hfar] at hclose
      cases hclose
    | next hturn' _ _ hrun =>
      obtain rfl := hturn.unique hturn'
      rw [ih hrun]

theorem Run.isClose_last {turns : List Turn} (h : Run n x c turns) :
    ∀ t ∈ turns.getLast?, isClose n t.after.h₁ t.after.k₁ := by
  induction h with
  | found _ hclose =>
    intro t ht
    cases ht
    exact hclose
  | next _ _ _ hrun ih => cases hrun <;> exact ih

end Search

/-! ## What a search keeps -/

/-- The fractions that the search can give. -/
structure IsSmall (h k : ℤ) : Prop where
  numerator : Word.fits h
  positive : 1 ≤ k
  denominator : k ≤ maxDenominator

/-- What the search keeps, with `x` the part of the expansion still to come: the denominators start
as 1 and 0, and later the last one is positive and the next quotient is at least one. -/
structure Convergents.Ready (c : Convergents) (x : Float) : Prop where
  previous : 0 ≤ c.k₀
  denominator : c.k₁ = 0 ∧ c.k₀ = 1 ∨ 1 ≤ c.k₁ ∧ (x.isFinite → 1 ≤ exact x)
  determinant : IsUnit c.det
  words : c.IsWords

theorem Convergents.ready_start (x : Float) : Convergents.start.Ready x where
  previous := zero_le_one
  denominator := .inl ⟨rfl, rfl⟩
  determinant := by
    rw [det_start]
    exact isUnit_one
  words := ⟨by decide, by decide, by decide, by decide⟩

/-- The reciprocal of a fractional part is at least one, unless it is beyond all doubles. -/
theorem one_le_reciprocal {x : Float} (hx : x.isFinite) (hrest : (x - floor x == 0) = false)
    (hfinite : (1 / (x - floor x)).isFinite) : 1 ≤ exact (1 / (x - floor x)) := by
  obtain ⟨hfloor, hexact⟩ := exact_floor hx
  have hrounds := rounds_sub hx hfloor
  have hlow := Int.fract_nonneg (exact x)
  have hhigh := Int.fract_lt_one (exact x)
  rw [hexact, Int.self_sub_floor] at hrounds
  have hrestFinite : (x - floor x).isFinite := by
    refine hrounds.isFinite ?_
    rw [abs_of_nonneg hlow]
    exact hhigh.le.trans (zpow_le_largest (k := 0) (by norm_num))
  have hne : exact (x - floor x) ≠ 0 := by
    rw [Ne, ← beq_zero_iff hrestFinite, hrest]
    exact Bool.false_ne_true
  have hpos : 0 < exact (x - floor x) :=
    lt_of_le_of_ne (hrounds.nonneg hrestFinite hlow) hne.symm
  have hle : exact (x - floor x) ≤ 1 := by
    simpa using hrounds.le_zpow hrestFinite (k := 0) (by norm_num) (by simpa using hhigh.le)
  have hdiv := rounds_div exact_literal_one.1 hrestFinite hne
  rw [exact_literal_one.2] at hdiv
  simpa using hdiv.zpow_le hfinite (k := 0) (by norm_num) (by simpa using (one_le_div hpos).mpr hle)

theorem exact_maxQuotient : maxQuotient.isFinite ∧ exact maxQuotient = 2 ^ 62 := by
  have hfinite : maxQuotient.isFinite := by decide +kernel
  have hbinary : Binary64.ofFloat maxQuotient = ⟨false, 2 ^ 52, 10⟩ := by decide +kernel
  rw [exact, hbinary, Binary64.value]
  exact ⟨hfinite, by norm_num⟩

namespace Turn.Takes

variable {t : Turn} {x : Float} {c : Convergents} (h : t.Takes x c)

include h

theorem isFinite : x.isFinite := isFinite_of_isFinite_floor h.finite

theorem quotient_eq : t.quotient = ⌊exact x⌋ := by rw [h.quotient, toInt_floor h.isFinite]

/-- The bound on the quotient is far below the largest word. -/
theorem fits_quotient : Word.fits t.quotient := by
  have hbounded := h.bounded
  obtain ⟨hfinite, hmax⟩ := exact_maxQuotient
  obtain ⟨-, hfloor⟩ := exact_floor h.isFinite
  rw [lt_iff_exact_lt hfinite (isFinite_abs h.finite), hmax, exact_abs h.finite, hfloor, not_lt,
    ← h.quotient_eq] at hbounded
  have hle : |t.quotient| ≤ 2 ^ 62 := by exact_mod_cast hbounded
  obtain ⟨hlow, hhigh⟩ := abs_le.mp hle
  exact Word.fits_iff.mpr ⟨by linarith, by linarith⟩

theorem next_eq : (Word.IsExact t.quotient c.h₁ c.h₀ ∧ Word.IsExact t.quotient c.k₁ c.k₀) ∧
    t.after = c.extend t.quotient := by
  rw [← h.before]
  exact Convergents.next?_eq_some_iff.mp h.next

variable (hc : c.Ready x)

include hc

theorem isExact : t.IsExact where
  quotient := h.fits_quotient
  before := h.before ▸ hc.words
  numerator := h.before ▸ h.next_eq.1.1
  denominator := h.before ▸ h.next_eq.1.2
  after := h.before ▸ h.next_eq.2

theorem max_denominator_le : max 1 c.k₁ ≤ t.after.k₁ := by
  have hprevious := hc.previous
  rw [h.next_eq.2, Convergents.extend, h.quotient_eq]
  dsimp only
  rcases hc.denominator with ⟨hzero, hone⟩ | ⟨hpos, hlarge⟩
  · -- The first quotient may be negative, but it is multiplied by zero.
    rw [hzero, hone]
    norm_num
  · have hfloor : 1 ≤ ⌊exact x⌋ := Int.le_floor.mpr (by exact_mod_cast hlarge h.isFinite)
    have hproduct : c.k₁ ≤ ⌊exact x⌋ * c.k₁ := le_mul_of_one_le_left (zero_le_one.trans hpos) hfloor
    rw [max_eq_right hpos]
    linarith

theorem denominator_le : c.k₁ ≤ t.after.k₁ := (le_max_right ..).trans (h.max_denominator_le hc)

theorem isUnit_det : IsUnit t.after.det := by
  rw [h.next_eq.2, Convergents.det_extend]
  exact hc.determinant.neg

theorem isWords : t.after.IsWords := by
  obtain ⟨⟨hnumerator, hdenominator⟩, hafter⟩ := h.next_eq
  rw [hafter]
  exact hc.words.extend hnumerator hdenominator

theorem isSmall : IsSmall t.after.h₁ t.after.k₁ :=
  ⟨(h.isWords hc).h₁, (le_max_left ..).trans (h.max_denominator_le hc), h.small⟩

theorem ready (hrest : (x - floor x == 0) = false) : t.after.Ready (1 / (x - floor x)) where
  previous := by
    rw [h.next_eq.2, Convergents.extend]
    rcases hc.denominator with ⟨hzero, -⟩ | ⟨hpos, -⟩
    · exact hzero.ge
    · exact zero_le_one.trans hpos
  denominator := .inr ⟨(h.isSmall hc).positive, one_le_reciprocal h.isFinite hrest⟩
  determinant := h.isUnit_det hc
  words := h.isWords hc

end Turn.Takes

namespace Run

variable {n x : Float} {c : Convergents} {turns : List Turn} (h : Run n x c turns) (hc : c.Ready x)

include h hc

/-- Every turn is taken at convergents that are ready for it. -/
theorem forall_ready : ∀ t ∈ turns, ∃ y d, t.Takes y d ∧ d.Ready y := by
  induction h with
  | found hturn _ =>
    intro t ht
    rw [List.mem_singleton] at ht
    subst ht
    exact ⟨_, _, hturn, hc⟩
  | next hturn _ hrest _ ih =>
    intro t ht
    rcases List.mem_cons.mp ht with rfl | ht
    · exact ⟨_, _, hturn, hc⟩
    · exact ih (hturn.ready hc hrest) t ht

/-- The denominators do not decrease. -/
theorem isChain : (c.k₁ :: turns.map (·.after.k₁)).IsChain (· ≤ ·) := by
  induction h with
  | found hturn _ => exact .cons_cons (hturn.denominator_le hc) (.singleton _)
  | next hturn _ hrest _ ih =>
    exact .cons_cons (hturn.denominator_le hc) (ih (hturn.ready hc hrest))

/-- The last fraction has a small denominator, is in lowest terms and is close. -/
theorem last {p q : ℤ} (hlast : turns.getLast?.map Turn.fraction = some (p, q)) :
    IsSmall p q ∧ IsCoprime p q ∧ isClose n p q := by
  obtain ⟨t, ht, hfraction⟩ := Option.map_eq_some_iff.mp hlast
  obtain ⟨y, d, hturn, hd⟩ := h.forall_ready hc t (List.mem_of_getLast? ht)
  cases hfraction
  exact ⟨hturn.isSmall hd, Convergents.isCoprime_of_isUnit_det (hturn.isUnit_det hd),
    h.isClose_last t ht⟩

end Run

/-- The fraction found has a small denominator and is close. -/
theorem search_eq_some {n x : Float} {steps : ℕ} {c : Convergents} (hc : c.Ready x) {h k : ℤ}
    (hs : search n steps x c = some (h, k)) : IsSmall h k ∧ isClose n h k := by
  obtain ⟨turns, hrun, -, hlast⟩ := search_eq_some_iff.mp hs
  obtain ⟨hsmall, -, hclose⟩ := hrun.last hc hlast
  exact ⟨hsmall, hclose⟩

/-- The fraction found is in lowest terms, with a denominator from 1 to 1000. The search for it has
one run, of 32 turns at most, in which no denominator is smaller than the one before it, and no
product and no sum wraps around. -/
theorem of?_eq_some_reduced {n : Float} {h k : ℤ} (hf : of? n = some (h, k)) :
    Int.gcd h k = 1 ∧ 1 ≤ k ∧ k ≤ 1000 ∧
      ∃ turns, (∀ ts, Run n n Convergents.start ts ↔ ts = turns) ∧ turns.length ≤ 32 ∧
        turns.getLast?.map Turn.fraction = some (h, k) ∧
        (turns.map (·.after.k₁)).Pairwise (· ≤ ·) ∧ ∀ t ∈ turns, t.IsExact := by
  have hready := Convergents.ready_start n
  obtain ⟨turns, hrun, hlength, hlast⟩ := search_eq_some_iff.mp hf
  obtain ⟨hsmall, hcoprime, -⟩ := hrun.last hready hlast
  refine ⟨Int.isCoprime_iff_gcd_eq_one.mp hcoprime, hsmall.positive, hsmall.denominator, turns,
    fun ts => ⟨hrun.unique, ?_⟩, hlength, hlast, ?_, ?_⟩
  · rintro rfl
    exact hrun
  · exact (List.pairwise_cons.mp (List.isChain_iff_pairwise.mp (hrun.isChain hready))).2
  · intro t ht
    obtain ⟨y, d, hturn, hd⟩ := hrun.forall_ready hready t ht
    exact hturn.isExact hd

/-- Nearly all quotients are one, so that this takes fifteen turns. -/
theorem of?_reduced_golden_ratio :
    let n : Float := -0.6180344478216818
    of? n = some (-610, 987) ∧ Int.gcd (-610) 987 = 1 ∧ (1 : ℤ) ≤ 987 ∧ (987 : ℤ) ≤ 1000 ∧
      ∃ turns, (∀ ts, Run n n Convergents.start ts ↔ ts = turns) ∧ turns.length ≤ 32 ∧
        turns.getLast?.map Turn.fraction = some (-610, 987) ∧
        (turns.map (·.after.k₁)).Pairwise (· ≤ ·) ∧ ∀ t ∈ turns, t.IsExact := by
  have hf : of? (-0.6180344478216818) = some (-610, 987) := by decide +kernel
  exact ⟨hf, of?_eq_some_reduced hf⟩

end Fraction

end Rollup
