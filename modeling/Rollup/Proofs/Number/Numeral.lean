import Mathlib.Computability.RegularExpressions
import Mathlib.Tactic.IntervalCases
import Rollup.Number.Numeral
import Rollup.Proofs.Text.Cut

/-! # The texts of numerals

A scan takes digits, then perhaps a point with more digits, then perhaps an exponent. What it takes
is a text of the numeral that it gives, and it takes such a text whole where nothing follows that
goes on with it. The texts that read as numbers are those of a regular expression.
-/

namespace Rollup

namespace Numeral

/-! ## Parts of a numeral -/

inductive IsFraction : Text → Text → Prop
  | none : IsFraction [] []
  | point {digits : Text} (h : ∀ c ∈ digits, c.isDigit) : IsFraction ('.' :: digits) digits

/-- The signs that an exponent may have, and their values. -/
def exponentSigns : List (Text × ℤ) := [([], 1), (['+'], 1), (['-'], -1)]

theorem mem_exponentSigns {mark : Text} {sign : ℤ} : (mark, sign) ∈ exponentSigns ↔
    mark = [] ∧ sign = 1 ∨ mark = ['+'] ∧ sign = 1 ∨ mark = ['-'] ∧ sign = -1 := by
  simp [exponentSigns]

inductive IsExponent : Text → ℤ → Prop
  | none : IsExponent [] 0
  | power {letter : Char} {mark digits : Text} {sign : ℤ} (hletter : letter = 'e' ∨ letter = 'E')
      (hsign : (mark, sign) ∈ exponentSigns) (hne : digits ≠ [])
      (hdigits : ∀ c ∈ digits, c.isDigit) :
      IsExponent (letter :: (mark ++ digits)) (sign * Text.digitsToNat digits)

/-- The texts of a numeral, also of one without any digit before its exponent. -/
inductive WrittenAs : Numeral → Text → Prop
  | parts {whole fraction point power : Text} {exponent : ℤ} (hwhole : ∀ c ∈ whole, c.isDigit)
      (hfraction : IsFraction point fraction) (hexponent : IsExponent power exponent) :
      WrittenAs ⟨whole, fraction, exponent⟩ (whole ++ (point ++ power))

/-! ## Scanning -/

/-- No numeral goes on with the text. -/
def Ends (rest : Text) : Prop :=
  ∀ c ∈ rest.head?, c.isDigit = false ∧ c ≠ '.' ∧ c ≠ 'e' ∧ c ≠ 'E'

theorem take_length_takeWhile (p : Char → Bool) (t : Text) :
    t.take (t.takeWhile p).length = t.takeWhile p :=
  (List.prefix_iff_eq_take.mp (List.takeWhile_prefix p)).symm

theorem isFraction_scanFraction (t : Text) :
    IsFraction (t.take (scanFraction t).2) (scanFraction t).1 := by
  unfold scanFraction
  split
  · rw [List.take_succ_cons, take_length_takeWhile]
    exact .point fun _ => List.mem_takeWhile_imp
  · exact .none

theorem isExponent_digits {letter : Char} {mark t : Text} {sign : ℤ}
    (hletter : letter = 'e' ∨ letter = 'E') (hsign : (mark, sign) ∈ exponentSigns) :
    IsExponent ((letter :: (mark ++ t)).take
        (scanExponent.digits t (mark.length + 1) sign).2)
      (scanExponent.digits t (mark.length + 1) sign).1 := by
  unfold scanExponent.digits
  dsimp only
  split
  · exact .none
  case isFalse hne =>
    have htake :
        (letter :: (mark ++ t)).take (mark.length + 1 + (t.takeWhile Char.isDigit).length) =
          letter :: (mark ++ t.takeWhile Char.isDigit) := by
      rw [Nat.add_right_comm, List.take_succ_cons, List.take_length_add_append,
        take_length_takeWhile]
    rw [htake]
    exact .power hletter hsign hne fun _ => List.mem_takeWhile_imp

theorem isExponent_scanExponent (t : Text) :
    IsExponent (t.take (scanExponent t).2) (scanExponent t).1 := by
  unfold scanExponent
  split
  · split
    case isTrue hletter =>
      split
      · have hplus : (['+'], 1) ∈ exponentSigns := by simp [exponentSigns]
        exact isExponent_digits hletter hplus
      · have hminus : (['-'], -1) ∈ exponentSigns := by simp [exponentSigns]
        exact isExponent_digits hletter hminus
      · have hnone : ([], 1) ∈ exponentSigns := by simp [exponentSigns]
        exact isExponent_digits hletter hnone
    · exact .none
  · exact .none

/-- A scan takes a text of the numeral that it gives. -/
theorem writtenAs_scan (t : Text) : (scan t).1.WrittenAs (t.take (scan t).2) := by
  let whole := t.takeWhile Char.isDigit
  let fraction := scanFraction (t.drop whole.length)
  let exponent := scanExponent (t.drop (whole.length + fraction.2))
  have hscan : scan t = (⟨whole, fraction.1, exponent.1⟩, whole.length + fraction.2 + exponent.2) :=
    rfl
  rw [hscan, List.take_add, List.take_add, take_length_takeWhile, List.append_assoc]
  exact .parts (fun _ => List.mem_takeWhile_imp) (isFraction_scanFraction _)
    (isExponent_scanExponent _)

theorem scanFraction_of_isFraction {point fraction rest : Text} (h : IsFraction point fraction)
    (hrest : ∀ c ∈ rest.head?, c.isDigit = false ∧ c ≠ '.') :
    scanFraction (point ++ rest) = (fraction, point.length) := by
  cases h with
  | none =>
    cases rest with
    | nil => rfl
    | cons c rest =>
      unfold scanFraction
      split
      case h_1 heq => exact absurd (List.cons.inj heq).1 (hrest c rfl).2
      case h_2 => rfl
  | point h =>
    simp [scanFraction, Text.takeWhile_append h fun c hc => (hrest c hc).1]

/-- An exponent starts with a letter and perhaps a sign, and has a digit after them. -/
theorem scanExponent_cons {letter : Char} {mark digits rest : Text} {sign : ℤ}
    (hletter : letter = 'e' ∨ letter = 'E') (hsign : (mark, sign) ∈ exponentSigns)
    (hne : digits ≠ []) (hdigits : ∀ c ∈ digits, c.isDigit) :
    scanExponent (letter :: (mark ++ (digits ++ rest))) =
      scanExponent.digits (digits ++ rest) (mark.length + 1) sign := by
  obtain ⟨d, digits, rfl⟩ := List.exists_cons_of_ne_nil hne
  have hd : d.isDigit := hdigits d List.mem_cons_self
  have hplus : d ≠ '+' := by rintro rfl; cases hd
  have hminus : d ≠ '-' := by rintro rfl; cases hd
  rcases mem_exponentSigns.mp hsign with ⟨rfl, rfl⟩ | ⟨rfl, rfl⟩ | ⟨rfl, rfl⟩ <;>
    simp [scanExponent, hletter, hplus, hminus]

theorem scanExponent_of_isExponent {power rest : Text} {exponent : ℤ}
    (h : IsExponent power exponent)
    (hrest : ∀ c ∈ rest.head?, c.isDigit = false ∧ c ≠ 'e' ∧ c ≠ 'E') :
    scanExponent (power ++ rest) = (exponent, power.length) := by
  cases h with
  | none =>
    cases rest with
    | nil => rfl
    | cons c rest => simp [scanExponent, hrest c rfl]
  | power hletter hsign hne hdigits =>
    have hrun := Text.takeWhile_append hdigits fun c hc => (hrest c hc).1
    rw [List.cons_append, List.append_assoc, scanExponent_cons hletter hsign hne hdigits]
    simp [scanExponent.digits, hrun, hne]
    omega

theorem head?_power {power rest : Text} {exponent : ℤ} (h : IsExponent power exponent)
    (hrest : Ends rest) : ∀ c ∈ (power ++ rest).head?, c.isDigit = false ∧ c ≠ '.' := by
  cases h with
  | none => exact fun c hc => ⟨(hrest c hc).1, (hrest c hc).2.1⟩
  | power hletter =>
    rintro c ⟨⟩
    rcases hletter with rfl | rfl <;> decide

theorem head?_point {point fraction rest : Text} (h : IsFraction point fraction)
    (hrest : ∀ c ∈ rest.head?, c.isDigit = false) :
    ∀ c ∈ (point ++ rest).head?, c.isDigit = false := by
  cases h with
  | none => exact hrest
  | point =>
    rintro c ⟨⟩
    rfl

/-- A text of a numeral is scanned as a whole where the numeral ends after it. -/
theorem scan_of_writtenAs {n : Numeral} {t rest : Text} (h : n.WrittenAs t) (hrest : Ends rest) :
    scan (t ++ rest) = (n, t.length) := by
  cases h with
  | @parts whole fraction point power exponent hwhole hfraction hexponent =>
    have hpower := head?_power hexponent hrest
    have hpoint := head?_point hfraction fun c hc => (hpower c hc).1
    have hend : ∀ c ∈ rest.head?, c.isDigit = false ∧ c ≠ 'e' ∧ c ≠ 'E' :=
      fun c hc => ⟨(hrest c hc).1, (hrest c hc).2.2⟩
    simp only [scan, List.append_assoc, Text.takeWhile_append hwhole hpoint, List.drop_left,
      scanFraction_of_isFraction hfraction hpower, ← List.drop_drop,
      scanExponent_of_isExponent hexponent hend, List.length_append, Nat.add_assoc]

/-! ## Reading -/

theorem value?_eq_none_iff {n : Numeral} : n.value? = none ↔ n.whole = [] ∧ n.fraction = [] := by
  simp [value?]

theorem read?_eq_some_iff {t : Text} {x : Float} :
    read? t = some x ↔ ∃ n : Numeral, n.WrittenAs t ∧ n.value? = some x := by
  have hread : read? t = if (scan t).2 = t.length then (scan t).1.value? else none := rfl
  rw [hread]
  constructor
  · intro h
    split at h
    case isTrue hused =>
      have hwritten := writtenAs_scan t
      rw [hused, List.take_length] at hwritten
      exact ⟨_, hwritten, h⟩
    case isFalse => cases h
  · rintro ⟨n, hn, hx⟩
    have hend : Ends [] := by simp [Ends]
    have hscan := scan_of_writtenAs hn hend
    rw [List.append_nil] at hscan
    rw [hscan, if_pos rfl, hx]

/-- A numeral with a value starts with a digit or a point. -/
theorem exists_cons_of_writtenAs {n : Numeral} {t : Text} {x : Float} (h : n.WrittenAs t)
    (hx : n.value? = some x) : ∃ c u, t = c :: u ∧ (c.isDigit ∨ c = '.') := by
  cases h with
  | @parts whole fraction point power exponent hwhole hfraction hexponent =>
    cases whole with
    | cons c whole => exact ⟨c, _, rfl, .inl (hwhole c List.mem_cons_self)⟩
    | nil =>
      cases hfraction with
      | none => simp [value?_eq_none_iff.mpr] at hx
      | point => exact ⟨'.', _, rfl, .inr rfl⟩

theorem read?_eq_none {c : Char} (hdigit : c.isDigit = false) (hpoint : c ≠ '.') (t : Text) :
    read? (c :: t) = none := by
  rw [Option.eq_none_iff_forall_ne_some]
  intro x h
  obtain ⟨n, hn, hx⟩ := read?_eq_some_iff.mp h
  obtain ⟨d, u, heq, hd⟩ := exists_cons_of_writtenAs hn hx
  obtain ⟨rfl, -⟩ := List.cons.inj heq
  exact hd.elim (by simp [hdigit]) hpoint

/-- A numeral goes no further than a character that cannot stand after its digits. -/
theorem read?_append_eq_none {digits : Text} {c : Char} (hdigits : ∀ d ∈ digits, d.isDigit)
    (hc : c.isDigit = false ∧ c ≠ '.' ∧ c ≠ 'e' ∧ c ≠ 'E') (rest : Text) :
    read? (digits ++ c :: rest) = none := by
  have hwritten : WrittenAs ⟨digits, [], 0⟩ (digits ++ ([] ++ [])) := .parts hdigits .none .none
  rw [List.append_nil, List.append_nil] at hwritten
  have hscan : scan (digits ++ c :: rest) = (⟨digits, [], 0⟩, digits.length) :=
    scan_of_writtenAs hwritten (by simpa [Ends] using hc)
  unfold read?
  rw [hscan]
  exact if_neg (by simp)

/-! ## The regular expression -/

open RegularExpression (char)

def oneOf (cs : List Char) : RegularExpression Char := (cs.map char).sum

def optional (p : RegularExpression Char) : RegularExpression Char := 1 + p

def digit : RegularExpression Char := oneOf "0123456789".toList

def digits : RegularExpression Char := digit * digit.star

/-- Digits with perhaps a point after or between them, or a point and digits. -/
def mantissa : RegularExpression Char :=
  digits * optional (char '.') * digit.star + char '.' * digits

def power : RegularExpression Char :=
  oneOf ['e', 'E'] * optional (oneOf ['+', '-']) * digits

def expression : RegularExpression Char := mantissa * optional power

section Matches

variable {t : Text}

theorem mem_oneOf {cs : List Char} : t ∈ (oneOf cs).matches' ↔ ∃ c ∈ cs, t = [c] := by
  induction cs with
  | nil => simp [oneOf]
  | cons c cs ih =>
    have hcons : oneOf (c :: cs) = char c + oneOf cs := List.sum_cons
    have hchar : t ∈ (char c).matches' ↔ t = [c] := Iff.rfl
    rw [hcons, RegularExpression.matches'_add, Language.mem_add, ih, hchar]
    simp

theorem mem_optional {p : RegularExpression Char} :
    t ∈ (optional p).matches' ↔ t = [] ∨ t ∈ p.matches' := by
  simp [optional, Language.mem_add, Language.mem_one]

theorem isDigit_iff_mem {c : Char} : c.isDigit ↔ c ∈ "0123456789".toList := by
  constructor
  · intro h
    simp only [Char.isDigit, Bool.and_eq_true, decide_eq_true_eq] at h
    have hlow : 48 ≤ c.toNat := UInt32.le_iff_toNat_le.mp h.1
    have hhigh : c.toNat ≤ 57 := UInt32.le_iff_toNat_le.mp h.2
    rw [← Char.ofNat_toNat c]
    interval_cases c.toNat <;> decide
  · intro h
    have hall : "0123456789".toList.all Char.isDigit := rfl
    exact List.all_eq_true.mp hall c h

theorem mem_digit_star : t ∈ digit.star.matches' ↔ ∀ c ∈ t, c.isDigit := by
  rw [RegularExpression.matches'_star, Language.mem_kstar]
  constructor
  · rintro ⟨pieces, rfl, hpieces⟩ c hc
    obtain ⟨piece, hpiece, hc⟩ := List.mem_flatten.mp hc
    obtain ⟨d, hd, rfl⟩ := mem_oneOf.mp (hpieces piece hpiece)
    rw [List.mem_singleton.mp hc]
    exact isDigit_iff_mem.mpr hd
  · intro h
    refine ⟨t.map fun c => [c], (List.flatMap_singleton' t).symm, fun piece hpiece => ?_⟩
    obtain ⟨c, hc, rfl⟩ := List.mem_map.mp hpiece
    exact mem_oneOf.mpr ⟨c, isDigit_iff_mem.mp (h c hc), rfl⟩

theorem mem_digits : t ∈ digits.matches' ↔ t ≠ [] ∧ ∀ c ∈ t, c.isDigit := by
  rw [digits, RegularExpression.matches'_mul, Language.mem_mul]
  constructor
  · rintro ⟨first, hfirst, rest, hrest, rfl⟩
    obtain ⟨c, hc, rfl⟩ := mem_oneOf.mp hfirst
    refine ⟨by simp, ?_⟩
    simp only [List.cons_append, List.nil_append, List.forall_mem_cons]
    exact ⟨isDigit_iff_mem.mpr hc, mem_digit_star.mp hrest⟩
  · rintro ⟨hne, h⟩
    obtain ⟨c, rest, rfl⟩ := List.exists_cons_of_ne_nil hne
    obtain ⟨hc, hrest⟩ := List.forall_mem_cons.mp h
    exact ⟨[c], mem_oneOf.mpr ⟨c, isDigit_iff_mem.mp hc, rfl⟩, rest, mem_digit_star.mpr hrest, rfl⟩

theorem mem_optional_sign :
    t ∈ (optional (oneOf ['+', '-'])).matches' ↔ ∃ sign, (t, sign) ∈ exponentSigns := by
  simp [mem_optional, mem_oneOf, exponentSigns, exists_or]

theorem mem_optional_power : t ∈ (optional power).matches' ↔ ∃ exponent, IsExponent t exponent := by
  rw [mem_optional, power, RegularExpression.matches'_mul, RegularExpression.matches'_mul,
    Language.mem_mul]
  constructor
  · rintro (rfl | ⟨_, hstart, digits, hdigits, rfl⟩)
    · exact ⟨0, .none⟩
    obtain ⟨_, hfirst, mark, hmark, rfl⟩ := Language.mem_mul.mp hstart
    obtain ⟨letter, hletter, rfl⟩ := mem_oneOf.mp hfirst
    obtain ⟨sign, hsign⟩ := mem_optional_sign.mp hmark
    obtain ⟨hne, hdigits⟩ := mem_digits.mp hdigits
    exact ⟨_, .power (by simpa using hletter) hsign hne hdigits⟩
  · rintro ⟨exponent, h⟩
    cases h with
    | none => exact .inl rfl
    | @power letter mark digits sign hletter hsign hne hdigits =>
      have hstart : [letter] ∈ (oneOf ['e', 'E']).matches' :=
        mem_oneOf.mpr ⟨letter, by simpa using hletter, rfl⟩
      have hmark := mem_optional_sign.mpr ⟨sign, hsign⟩
      exact .inr ⟨[letter] ++ mark, Language.mem_mul.mpr ⟨_, hstart, _, hmark, rfl⟩, digits,
        mem_digits.mpr ⟨hne, hdigits⟩, rfl⟩

theorem mem_mantissa : t ∈ mantissa.matches' ↔ ∃ whole point fraction, t = whole ++ point ∧
    (∀ c ∈ whole, c.isDigit) ∧ IsFraction point fraction ∧ ¬ (whole = [] ∧ fraction = []) := by
  have hpoint {u : Text} : u ∈ (char '.').matches' ↔ u = ['.'] := Iff.rfl
  simp only [mantissa, RegularExpression.matches'_add, RegularExpression.matches'_mul,
    Language.mem_add, Language.mem_mul, mem_optional, mem_digits, mem_digit_star, hpoint]
  constructor
  · rintro (⟨_, ⟨whole, ⟨hne, hwhole⟩, point, hp, rfl⟩, fraction, hfraction, rfl⟩ |
      ⟨_, rfl, fraction, ⟨hne, hfraction⟩, rfl⟩)
    · rcases hp with rfl | rfl
      · refine ⟨whole ++ fraction, [], [], by simp, ?_, .none, by simp [hne]⟩
        exact List.forall_mem_append.mpr ⟨hwhole, hfraction⟩
      · exact ⟨whole, '.' :: fraction, fraction, by simp, hwhole, .point hfraction, by simp [hne]⟩
    · exact ⟨[], '.' :: fraction, fraction, rfl, by simp, .point hfraction, by simp [hne]⟩
  · rintro ⟨whole, point, fraction, rfl, hwhole, hfraction, hne⟩
    by_cases hnil : whole = []
    · subst hnil
      cases hfraction with
      | none => simp at hne
      | point h => exact .inr ⟨['.'], rfl, fraction, ⟨by simpa using hne, h⟩, rfl⟩
    · refine .inl ?_
      cases hfraction with
      | none => exact ⟨whole, ⟨whole, ⟨hnil, hwhole⟩, [], .inl rfl, by simp⟩, [], by simp, rfl⟩
      | point h =>
        exact ⟨whole ++ ['.'], ⟨whole, ⟨hnil, hwhole⟩, ['.'], .inr rfl, rfl⟩, fraction, h, by simp⟩

/-- The texts that read as numerals are those that the expression matches. -/
theorem isSome_read?_iff : (read? t).isSome ↔ t ∈ expression.matches' := by
  rw [Option.isSome_iff_exists, expression, RegularExpression.matches'_mul, Language.mem_mul]
  simp only [read?_eq_some_iff, mem_mantissa, mem_optional_power]
  constructor
  · rintro ⟨x, n, hn, hx⟩
    cases hn with
    | @parts whole fraction point power exponent hwhole hfraction hexponent =>
      refine ⟨whole ++ point, ⟨whole, point, fraction, rfl, hwhole, hfraction, ?_⟩, power,
        ⟨exponent, hexponent⟩, by simp⟩
      intro hnone
      rw [value?_eq_none_iff.mpr hnone] at hx
      cases hx
  · rintro ⟨_, ⟨whole, point, fraction, rfl, hwhole, hfraction, hne⟩, power, ⟨exponent, hexponent⟩,
      rfl⟩
    have hvalue : Numeral.value? ⟨whole, fraction, exponent⟩ ≠ none :=
      fun hnone => hne (value?_eq_none_iff.mp hnone)
    obtain ⟨x, hx⟩ := Option.ne_none_iff_exists'.mp hvalue
    exact ⟨x, _, by simpa using WrittenAs.parts hwhole hfraction hexponent, hx⟩

end Matches

end Numeral

/-! ## Signs -/

namespace Number

open Numeral (oneOf optional)

def expression : RegularExpression Char := optional (oneOf ['+', '-']) * Numeral.expression

theorem read?_sign {c : Char} (hc : c = '+' ∨ c = '-') (t : Text) :
    Numeral.read? (c :: t) = none := by
  rcases hc with rfl | rfl <;> exact Numeral.read?_eq_none rfl (by decide) t

/-- A numeral is a number without a sign. -/
theorem numeral_read?_eq_some_iff {t : Text} {x : Float} : Numeral.read? t = some x ↔
    (∀ c ∈ t.head?, c ≠ '+' ∧ c ≠ '-') ∧ read? t = some x := by
  unfold read?
  split
  case h_1 t => simp [read?_sign]
  case h_2 t => simp [read?_sign]
  case h_3 hminus hplus =>
    refine (and_iff_right ?_).symm
    cases t with
    | nil => simp
    | cons c t =>
      rintro d ⟨⟩
      exact ⟨fun h => hplus t (h ▸ rfl), fun h => hminus t (h ▸ rfl)⟩

theorem mem_expression {t : Text} : t ∈ expression.matches' ↔ (Numeral.read? t).isSome ∨
    ∃ c u, (c = '+' ∨ c = '-') ∧ t = c :: u ∧ (Numeral.read? u).isSome := by
  rw [expression, RegularExpression.matches'_mul, Language.mem_mul]
  simp only [Numeral.mem_optional, Numeral.mem_oneOf, Numeral.isSome_read?_iff]
  constructor
  · rintro ⟨_, rfl | ⟨c, hc, rfl⟩, u, hu, rfl⟩
    · exact .inl hu
    · exact .inr ⟨c, u, by simpa using hc, rfl, hu⟩
  · rintro (ht | ⟨c, u, hc, rfl, hu⟩)
    · exact ⟨[], .inl rfl, t, ht, rfl⟩
    · exact ⟨[c], .inr ⟨c, by simpa using hc, rfl⟩, u, hu, rfl⟩

theorem isSome_read?_iff {t : Text} : (read? t).isSome ↔ t ∈ expression.matches' := by
  rw [mem_expression]
  unfold read?
  split
  case h_1 t => simp [read?_sign]
  case h_2 t => simp [read?_sign]
  case h_3 hminus hplus =>
    have hsign : ¬ ∃ c u, (c = '+' ∨ c = '-') ∧ t = c :: u ∧ (Numeral.read? u).isSome := by
      rintro ⟨c, u, rfl | rfl, rfl, -⟩
      · exact hplus u rfl
      · exact hminus u rfl
    exact (or_iff_left hsign).symm

end Number

end Rollup
