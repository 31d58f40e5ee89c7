import Rollup.Proofs.Double.Value
import Rollup.Proofs.Text.Pieces
import Rollup.Proofs.Text.Trim

/-! # Whole numbers in patterns

A conversion in base ten, sixteen or eight lays a whole number out in blanks, sign, mark, zeros and
digits, as wide as it is asked to be. Zeros that fill up the width come before the mark of the base,
so that a hexadecimal number with both cannot be read back.
-/

namespace Rollup.Printf

open Number

/-! ## Bases -/

/-- The bases in which a conversion writes a whole number. -/
inductive Base where
  | decimal
  | hexadecimal (upper : Bool)
  | octal

namespace Base

variable {base : Base} {c : Char} {n : ℕ} {t : Text}

def kind : Base → Kind
  | decimal => .whole
  | hexadecimal upper => .hexadecimal upper
  | octal => .octal

def radix : Base → ℕ
  | decimal => 10
  | hexadecimal _ => 16
  | octal => 8

/-- What stands in front of the digits when they are to show their base. -/
def mark : Base → Text
  | decimal => []
  | hexadecimal false => ['0', 'x']
  | hexadecimal true => ['0', 'X']
  | octal => ['0']

/-- How a digit is written. -/
def digit (base : Base) (d : ℕ) : Char :=
  match base with
  | hexadecimal true => (Nat.digitChar d).toUpper
  | _ => Nat.digitChar d

def digits : Base → ℕ → Text
  | hexadecimal true, n => upperHex (Nat.toDigits 16 n)
  | base, n => Nat.toDigits base.radix n

theorem one_lt_radix (base : Base) : 1 < base.radix := by
  cases base <;> simp [radix]

theorem digits_eq (base : Base) (n : ℕ) : base.digits n =
    (if n < base.radix then [] else base.digits (n / base.radix)) ++
      [base.digit (n % base.radix)] := by
  have hdigits : Nat.toDigits base.radix n =
      (if n < base.radix then [] else Nat.toDigits base.radix (n / base.radix)) ++
        [Nat.digitChar (n % base.radix)] := by
    rw [Nat.toDigits_eq_if base.one_lt_radix]
    split
    case isTrue hlt => rw [Nat.mod_eq_of_lt hlt, List.nil_append]
    case isFalse => rfl
  cases base with
  | hexadecimal upper =>
    cases upper with
    | false => exact hdigits
    | true =>
      rw [digits, upperHex, ← radix.eq_2 true, hdigits, List.map_append]
      split <;> rfl
  | decimal => exact hdigits
  | octal => exact hdigits

/-- The digit that a character is. -/
def value? (base : Base) (c : Char) : Option ℕ :=
  (List.range base.radix).find? fun d => base.digit d = c

/-- Reads digits, from the first one on. -/
def readDigits? (base : Base) (t : Text) : Option ℕ :=
  t.foldlM (fun n c => (base.value? c).map (base.radix * n + ·)) 0

theorem value?_digit {d : ℕ} (h : d < base.radix) : base.value? (base.digit d) = some d := by
  cases base with
  | decimal => change d < 10 at h; interval_cases d <;> rfl
  | hexadecimal upper => change d < 16 at h; cases upper <;> interval_cases d <;> rfl
  | octal => change d < 8 at h; interval_cases d <;> rfl

theorem isAlphanum_of_value? (h : (base.value? c).isSome) : c.isAlphanum := by
  obtain ⟨d, hd⟩ := Option.isSome_iff_exists.mp h
  have hlt : d < base.radix := List.mem_range.mp (List.mem_of_find?_eq_some hd)
  obtain rfl : base.digit d = c := by simpa using List.find?_some hd
  cases base with
  | decimal => change d < 10 at hlt; interval_cases d <;> rfl
  | hexadecimal upper => change d < 16 at hlt; cases upper <;> interval_cases d <;> rfl
  | octal => change d < 8 at hlt; interval_cases d <;> rfl

theorem readDigits?_digits (base : Base) (n : ℕ) : base.readDigits? (base.digits n) = some n := by
  induction n using Nat.strong_induction_on with
  | _ n ih =>
    have hlast := value?_digit (Nat.mod_lt n (Nat.zero_lt_of_lt base.one_lt_radix))
    rw [digits_eq]
    split
    case isTrue hlt =>
      rw [Nat.mod_eq_of_lt hlt] at hlast ⊢
      simp [readDigits?, hlast]
    case isFalse hge =>
      have hdiv := ih (n / base.radix)
        (Nat.div_lt_self (Nat.lt_of_lt_of_le (Nat.zero_lt_of_lt base.one_lt_radix)
          (Nat.le_of_not_lt hge)) base.one_lt_radix)
      rw [readDigits?] at hdiv ⊢
      rw [List.foldlM_append, hdiv]
      simp [hlast, Nat.div_add_mod]

theorem readDigits?_zeros (base : Base) (k : ℕ) (t : Text) :
    base.readDigits? (List.replicate k '0' ++ t) = base.readDigits? t := by
  have hzero : base.value? '0' = some 0 := by
    rcases base with _ | (_ | _) | _ <;> rfl
  induction k with
  | zero => rfl
  | succ k ih =>
    rw [← ih, List.replicate_succ, List.cons_append, readDigits?, List.foldlM_cons, hzero]
    rfl

theorem isSome_value?_of_readDigits? (h : (base.readDigits? t).isSome) :
    ∀ c ∈ t, (base.value? c).isSome := by
  rw [readDigits?] at h
  generalize 0 = n at h
  induction t generalizing n with
  | nil => simp
  | cons c t ih =>
    rw [List.foldlM_cons] at h
    cases hc : base.value? c with
    | none => simp [hc] at h
    | some d =>
      rw [hc] at h
      exact List.forall_mem_cons.mpr ⟨by rw [hc]; rfl, ih _ h⟩

theorem digits_eq_zero_iff : base.digits n = ['0'] ↔ n = 0 := by
  constructor
  · intro h
    have hread := base.readDigits?_digits n
    rw [h] at hread
    have hzero := base.readDigits?_zeros 1 []
    exact Option.some_injective _ (hread.symm.trans hzero)
  · rintro rfl
    rcases base with _ | (_ | _) | _ <;> rfl

end Base

/-! ## Layout -/

/-- A whole number laid out, where the numbers count blanks and zeros. -/
structure Layout where
  before : ℕ
  sign : Text
  mark : Text
  zeros : ℕ
  digits : Text
  after : ℕ

namespace Layout

/-- The text of a layout, around what stands between the sign and the blanks at the end. -/
def around (l : Layout) (core : Text) : Text :=
  List.replicate l.before ' ' ++ l.sign ++ core ++ List.replicate l.after ' '

/-- The text of a layout, with the mark in front of the zeros. -/
def text (l : Layout) : Text := l.around (l.mark ++ List.replicate l.zeros '0' ++ l.digits)

/-- The text with the mark behind the zeros. -/
def lateText (l : Layout) : Text := l.around (List.replicate l.zeros '0' ++ l.mark ++ l.digits)

/-- Fills a layout up to a width: behind the number, or else with zeros, or else in front. -/
def fill (l : Layout) (flags : Flags) (width : ℕ) : Layout :=
  let padding := width - l.text.length
  if flags.left then { l with after := padding }
  else if flags.zero then { l with zeros := padding }
  else { l with before := padding }

variable {l : Layout} {flags : Flags} {width : ℕ}

theorem length_lateText (l : Layout) : l.lateText.length = l.text.length := by
  simp [text, lateText, around]
  omega

theorem lateText_eq_text (h : l.zeros = 0 ∨ l.mark = [] ∨ l.mark = ['0']) :
    l.lateText = l.text := by
  rw [lateText, text]
  rcases h with h | h | h
  · simp [h]
  · simp [h]
  · rw [h, ← List.replicate_succ', List.replicate_succ]
    rfl

theorem fill_sign : (l.fill flags width).sign = l.sign := by
  unfold fill
  split_ifs <;> rfl

theorem fill_mark : (l.fill flags width).mark = l.mark := by
  unfold fill
  split_ifs <;> rfl

theorem fill_digits : (l.fill flags width).digits = l.digits := by
  unfold fill
  split_ifs <;> rfl

theorem fill_zeros (h : l.zeros = 0) : (l.fill flags width).zeros =
    if flags.zero && !flags.left then width - l.text.length else 0 := by
  unfold fill
  cases flags.left <;> cases flags.zero <;> simp [h]

theorem length_fill (hbefore : l.before = 0) (hzeros : l.zeros = 0) (hafter : l.after = 0) :
    (l.fill flags width).text.length = max width l.text.length := by
  unfold fill
  split_ifs <;> simp [text, around, hbefore, hzeros, hafter] <;> omega

end Layout

def Flags.sign (flags : Flags) (n : ℤ) : Text :=
  if n < 0 then ['-'] else if flags.plus then ['+'] else if flags.space then [' '] else []

namespace Base

/-- A number as it is laid out without a width. -/
def bare (base : Base) (flags : Flags) (n : ℤ) : Layout where
  before := 0
  sign := flags.sign n
  mark := if flags.alternate ∧ n ≠ 0 then base.mark else []
  zeros := 0
  digits := base.digits n.natAbs
  after := 0

def layout (base : Base) (flags : Flags) (width : ℕ) (n : ℤ) : Layout :=
  (base.bare flags n).fill flags width

/-- Reads the size of a number from its text, past the blanks around it, the sign and the mark. -/
def readSize? (base : Base) (t : Text) : Option ℕ :=
  let t := Text.trim t
  let t := if t.head? = some '-' ∨ t.head? = some '+' then t.tail else t
  base.readDigits? ((Text.after? base.mark t).getD t)

end Base

section

variable {c : Conversion} {base : Base} {x : Float} {n : ℤ}

theorem sign_of_exact (hc : c.kind = base.kind) (hx : x.isFinite) (hn : exact x = n) :
    c.sign x = c.flags.sign n := by
  have hkind : c.kind ≠ .string := by
    rw [hc]
    cases base <;> simp [Base.kind]
  have hneg : x < 0 ↔ n < 0 := by
    rw [lt_iff_exact_lt hx exact_literal_zero.1, exact_literal_zero.2, hn]
    exact_mod_cast Iff.rfl
  simp only [Conversion.sign, Flags.sign, hkind, hneg, if_false]

theorem withMark_digits (alternate : Bool) (mark : Text) (base : Base) (k : ℕ) :
    withMark alternate mark (base.digits k) =
      (if alternate ∧ k ≠ 0 then mark else []) ++ base.digits k := by
  by_cases hk : k = 0
  · rw [Base.digits_eq_zero_iff.mpr hk]
    simp [withMark, hk]
  · have hdigits : base.digits k ≠ ['0'] := mt Base.digits_eq_zero_iff.mp hk
    cases alternate <;> simp [withMark, hk, hdigits]

theorem body_of_exact (hc : c.kind = base.kind) (hx : x.isFinite) (hn : exact x = n)
    (hsize : n.natAbs < 2 ^ 53) (precision : ℕ) :
    c.body precision x = (base.bare c.flags n).mark ++ (base.bare c.flags n).digits := by
  have hbody : c.body precision x =
      withMark c.flags.alternate base.mark (base.digits (roundedSize x)) := by
    unfold Conversion.body Conversion.bodyBy
    rw [hc]
    rcases base with _ | (_ | _) | _
    · change Text.ofNat (roundedSize x) = _
      simp [withMark, Base.mark, Base.digits, Text.ofNat, Base.radix]
    all_goals rfl
  rw [hbody, roundedSize_of_exact hx hn hsize, withMark_digits]
  simp only [Base.bare, Int.natAbs_ne_zero]

/-- What a conversion writes is its layout, but with the mark behind the zeros. -/
theorem render_of_exact (hc : c.kind = base.kind) (hx : x.isFinite) (hn : exact x = n)
    (hsize : n.natAbs < 2 ^ 53) (precision : ℕ) :
    c.render precision x = (base.layout c.flags c.width n).lateText := by
  have hstring : (c.kind != .string) = true := by
    rw [hc]
    cases base <;> rfl
  have hlength : (base.bare c.flags n).text.length =
      (c.flags.sign n ++ ((base.bare c.flags n).mark ++ (base.bare c.flags n).digits)).length := by
    simp [Layout.text, Layout.around, Base.bare]
  have hrender : c.render precision x = c.fill (c.sign x) (c.body precision x) := rfl
  rw [hrender, sign_of_exact hc hx hn, body_of_exact hc hx hn hsize, Conversion.fill, hstring,
    Bool.and_true, Base.layout, Layout.fill, hlength]
  cases c.flags.left <;> cases c.flags.zero <;>
    simp [Layout.lateText, Layout.around, Base.bare]

end

/-! ## Reading back -/

namespace Base

variable {base : Base} {n : ℤ} {t core : Text} {k : ℕ}

/-- Around letters and digits, the blanks and the sign are found. -/
theorem readSize?_around {l : Layout} {flags : Flags} (hsign : l.sign = flags.sign n)
    (hcore : ∀ c ∈ core, c.isAlphanum) :
    base.readSize? (l.around core) =
      base.readDigits? ((Text.after? base.mark core).getD core) := by
  have htrim {s : Text} (hs : ∀ c ∈ s, ¬ Text.isWhite c) : Text.trim (s ++ core) = s ++ core := by
    have hall : ∀ c ∈ s ++ core, ¬ Text.isWhite c :=
      List.forall_mem_append.mpr
        ⟨hs, fun c hc => Bool.eq_false_iff.mp (Text.isWhite_of_isAlphanum (hcore c hc))⟩
    exact Text.trim_eq_self (fun c hc => hall c (List.mem_of_mem_head? hc))
      fun c hc => hall c (List.mem_of_mem_getLast? hc)
  have hsigns : l.sign = ['-'] ∨ l.sign = ['+'] ∨ l.sign = [' '] ∨ l.sign = [] := by
    rw [hsign, Flags.sign]
    split_ifs <;> simp
  -- a blank for the sign counts among the blanks in front of the number
  have hsigned : ∃ s, (s = [] ∨ s = ['-'] ∨ s = ['+']) ∧ Text.trim (l.around core) = s ++ core := by
    rw [Layout.around, Text.trim_append_right (Text.isBlank_replicate _), List.append_assoc,
      Text.trim_append_left (Text.isBlank_replicate _)]
    rcases hsigns with h | h | h | h <;> rw [h]
    · exact ⟨['-'], by simp, htrim (by simp; rfl)⟩
    · exact ⟨['+'], by simp, htrim (by simp; rfl)⟩
    · refine ⟨[], by simp, ?_⟩
      rw [Text.trim_append_left rfl]
      exact htrim (s := []) (by simp)
    · exact ⟨[], by simp, htrim (by simp)⟩
  have hhead : ¬ (core.head? = some '-' ∨ core.head? = some '+') := by
    rintro (h | h) <;> exact absurd (hcore _ (List.mem_of_mem_head? h)) (by decide)
  obtain ⟨s, hs, htext⟩ := hsigned
  rw [readSize?, htext]
  rcases hs with rfl | rfl | rfl
  · rw [List.nil_append, if_neg hhead]
  · rfl
  · rfl

/-- A mark in front of digits is taken off, and an octal one is one more zero. -/
theorem readDigits?_after? (h : base.readDigits? t = some k) :
    base.readDigits? ((Text.after? base.mark t).getD t) = some k := by
  cases hafter : Text.after? base.mark t with
  | none => exact h
  | some u =>
    obtain rfl := Text.after?_eq_some_iff.mp hafter
    rcases base with _ | upper | _
    · exact h
    · have hvalid := isSome_value?_of_readDigits? (Option.isSome_of_eq_some h)
      cases upper
      · exact absurd (hvalid 'x' (by simp [mark])) (by decide)
      · exact absurd (hvalid 'X' (by simp [mark])) (by decide)
    · exact (readDigits?_zeros octal 1 u).symm.trans h

variable {flags : Flags} {width : ℕ}

theorem layout_sign : (base.layout flags width n).sign = flags.sign n := Layout.fill_sign

theorem layout_mark : (base.layout flags width n).mark =
    if flags.alternate ∧ n ≠ 0 then base.mark else [] := Layout.fill_mark

theorem layout_digits : (base.layout flags width n).digits = base.digits n.natAbs :=
  Layout.fill_digits

theorem layout_zeros : (base.layout flags width n).zeros =
    if flags.zero && !flags.left then width - (base.bare flags n).text.length else 0 :=
  Layout.fill_zeros rfl

theorem isAlphanum_of_mem_mark (base : Base) : ∀ c ∈ base.mark, c.isAlphanum := by
  rw [← List.all_eq_true]
  rcases base with _ | (_ | _) | _ <;> rfl

/-- Nothing between the sign and the blanks at the end can be taken for a sign or a blank. -/
theorem isAlphanum_of_mem_layout (base : Base) (flags : Flags) (width : ℕ) (n : ℤ) :
    let l := base.layout flags width n
    (∀ c ∈ l.mark, c.isAlphanum) ∧ (∀ c ∈ List.replicate l.zeros '0', c.isAlphanum) ∧
      ∀ c ∈ l.digits, c.isAlphanum := by
  intro l
  refine ⟨?_, ?_, ?_⟩
  · dsimp only [l]
    rw [layout_mark]
    split_ifs
    · exact isAlphanum_of_mem_mark base
    · simp
  · intro c hc
    rw [List.eq_of_mem_replicate hc]
    rfl
  · dsimp only [l]
    rw [layout_digits]
    have hread := Option.isSome_of_eq_some (base.readDigits?_digits n.natAbs)
    exact fun c hc => isAlphanum_of_value? (isSome_value?_of_readDigits? hread c hc)

theorem readSize?_text (base : Base) (flags : Flags) (width : ℕ) (n : ℤ) :
    base.readSize? (base.layout flags width n).text = some n.natAbs := by
  obtain ⟨hmark, hzeros, hdigits⟩ := isAlphanum_of_mem_layout base flags width n
  rw [Layout.text, readSize?_around layout_sign
    (List.forall_mem_append.mpr ⟨List.forall_mem_append.mpr ⟨hmark, hzeros⟩, hdigits⟩)]
  have hread := base.readDigits?_digits n.natAbs
  rw [← base.readDigits?_zeros (base.layout flags width n).zeros] at hread
  rw [layout_mark, layout_digits]
  split_ifs
  case pos =>
    rw [List.append_assoc, Text.after?_eq_some_iff.mpr rfl]
    exact hread
  case neg => exact readDigits?_after? hread

/-- A hexadecimal mark behind zeros is taken for digits, of which one is none. -/
theorem readSize?_lateText {upper : Bool} (halternate : flags.alternate ∧ n ≠ 0)
    (hpadded : ((hexadecimal upper).layout flags width n).zeros ≠ 0) :
    (hexadecimal upper).readSize? ((hexadecimal upper).layout flags width n).lateText = none := by
  obtain ⟨hmark, hzeros, hdigits⟩ := isAlphanum_of_mem_layout (hexadecimal upper) flags width n
  rw [Layout.lateText, readSize?_around layout_sign
    (List.forall_mem_append.mpr ⟨List.forall_mem_append.mpr ⟨hzeros, hmark⟩, hdigits⟩),
    layout_mark, if_pos halternate]
  obtain ⟨k, hk⟩ := Nat.exists_eq_succ_of_ne_zero hpadded
  generalize ((hexadecimal upper).layout flags width n).digits = digits
  rw [hk, ← Option.not_isSome_iff_eq_none]
  intro hsome
  -- the text begins with two zeros, so that no mark is taken off
  have hnone : Text.after? (hexadecimal upper).mark
      (List.replicate k.succ '0' ++ (hexadecimal upper).mark ++ digits) = none := by
    cases upper <;> cases k <;> rfl
  rw [hnone] at hsome
  have hvalid := isSome_value?_of_readDigits? hsome
  cases upper
  · exact absurd (hvalid 'x' (by simp [mark])) (by decide)
  · exact absurd (hvalid 'X' (by simp [mark])) (by decide)

end Base

/-! ## Padding -/

section

variable {base : Base} {flags : Flags} {width : ℕ} {n : ℤ}

/-- When zeros fill up a hexadecimal number that has a mark. -/
structure PadsMark (base : Base) (flags : Flags) (width : ℕ) (n : ℤ) : Prop where
  hexadecimal : ∃ upper, base = .hexadecimal upper
  alternate : flags.alternate
  nonzero : n ≠ 0
  zero : flags.zero
  right : flags.left = false
  narrow : (base.bare flags n).text.length < width

theorem PadsMark.zeros_ne_zero (h : PadsMark base flags width n) :
    (base.layout flags width n).zeros ≠ 0 := by
  rw [Base.layout_zeros, h.zero, h.right]
  exact (Nat.sub_pos_of_lt h.narrow).ne'

theorem lateText_of_not_padsMark (h : ¬ PadsMark base flags width n) :
    (base.layout flags width n).lateText = (base.layout flags width n).text := by
  apply Layout.lateText_eq_text
  rw [Base.layout_zeros, Base.layout_mark]
  by_contra hnone
  push Not at hnone
  obtain ⟨hzeros, hmark, hoctal⟩ := hnone
  split_ifs at hzeros hmark hoctal
  case pos hpad hmarked =>
    rw [Bool.and_eq_true, Bool.not_eq_true'] at hpad
    rcases base with _ | upper | _
    · exact hmark rfl
    · exact h ⟨⟨upper, rfl⟩, hmarked.1, hmarked.2, hpad.1, hpad.2, by omega⟩
    · exact hoctal rfl
  all_goals first | exact hzeros rfl | exact hmark rfl

/-- A whole number is as wide as the width, or wider where it does not fit in. It is laid out with
the mark right behind the sign, and read back, just when zeros do not fill up a hexadecimal number
with a mark. -/
theorem Conversion.render_whole_iff {c : Conversion} {x : Float} (hc : c.kind = base.kind)
    (hx : x.isFinite) (hn : exact x = n) (hsize : n.natAbs < 2 ^ 53) (precision : ℕ) :
    (c.render precision x).length = max c.width (base.bare c.flags n).text.length ∧
      (c.render precision x = (base.layout c.flags c.width n).text ↔
        ¬ PadsMark base c.flags c.width n) ∧
      (base.readSize? (c.render precision x) = some n.natAbs ↔
        ¬ PadsMark base c.flags c.width n) := by
  rw [render_of_exact hc hx hn hsize precision]
  have hread := base.readSize?_text c.flags c.width n
  refine ⟨(Layout.length_lateText _).trans (Layout.length_fill rfl rfl rfl), ?_⟩
  by_cases h : PadsMark base c.flags c.width n
  · obtain ⟨upper, rfl⟩ := h.hexadecimal
    have hlate := Base.readSize?_lateText ⟨h.alternate, h.nonzero⟩ h.zeros_ne_zero
    refine ⟨iff_of_false (fun heq => ?_) (not_not.mpr h), iff_of_false ?_ (not_not.mpr h)⟩
    · rw [heq, hread] at hlate
      cases hlate
    · rw [hlate]
      simp
  · rw [lateText_of_not_padsMark h]
    exact ⟨iff_of_true rfl h, iff_of_true hread h⟩

/-- The sign, the mark, zeros that are not asked for and blanks at the end. -/
theorem Conversion.render_whole_left :
    let c : Conversion := ⟨⟨true, true, true, true, true⟩, 8, none, .hexadecimal true⟩
    let x := Float.ofInt (-255)
    (c.kind = (Base.hexadecimal true).kind ∧ x.isFinite ∧ exact x = (-255 : ℤ)) ∧
      c.render 12 x = "-0XFF   ".toList ∧
      (Base.hexadecimal true).readSize? (c.render 12 x) = some 255 := by
  intro c x
  have hx : x.isFinite ∧ exact x = (-255 : ℤ) := exact_ofInt (by decide)
  have hpads : ¬ PadsMark (.hexadecimal true) c.flags c.width (-255) := by
    intro h
    cases h.right
  have hc : c.kind = (Base.hexadecimal true).kind := rfl
  obtain ⟨-, htext, hread⟩ := Conversion.render_whole_iff hc hx.1 hx.2 (by decide) 12
  exact ⟨⟨hc, hx⟩, (htext.mpr hpads).trans (by decide +kernel), hread.mpr hpads⟩

/-- With zeros in front of its mark, the text is no hexadecimal number. -/
theorem Conversion.render_whole_late :
    let c : Conversion := ⟨⟨false, false, false, true, true⟩, 8, none, .hexadecimal false⟩
    Printf.read 0 "%#08x".toList = .ok [.conversion c] ∧
      (255 : Float).isFinite ∧ exact 255 = (255 : ℤ) ∧
      c.render 12 255 = "00000xff".toList ∧
      ((Base.hexadecimal false).layout c.flags c.width 255).text = "0x0000ff".toList ∧
      (Base.hexadecimal false).readSize? (c.render 12 255) = none := by
  obtain ⟨hfinite, hexact⟩ := exact_literal 255 (by decide)
  exact ⟨by decide +kernel, hfinite, hexact, by decide +kernel, by decide +kernel,
    by decide +kernel⟩

end

end Rollup.Printf
