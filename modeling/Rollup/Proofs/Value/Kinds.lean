import Rollup.Proofs.Value.Durations
import Rollup.Value.Cell

/-! # What tells the kinds of cells apart

Numbers, dates and elapsed times all start with digits, except for signs and brackets. They differ
in the first character that follows: a number ends there, or goes on with a point or an exponent, a
date goes on with a dash and an elapsed time with a colon. So a text is of one kind at most, and it
does not matter in which order the kinds are tried.
-/

namespace Rollup

/-! ## The mark of a text -/

/-- The first character after an optional sign and the digits. -/
def mark? (t : Text) : Option Char :=
  let unsigned := match t with
    | '-' :: u => u
    | '+' :: u => u
    | u => u
  (unsigned.dropWhile Char.isDigit).head?

theorem mark?_of_unsigned {t : Text} (hminus : ∀ u, t ≠ '-' :: u) (hplus : ∀ u, t ≠ '+' :: u) :
    mark? t = (t.dropWhile Char.isDigit).head? := by
  unfold mark?
  dsimp only
  split
  · exact absurd rfl (hminus _)
  · exact absurd rfl (hplus _)
  · rfl

/-- After its digits a numeral ends, or has a point or an exponent. -/
theorem Numeral.mark_of_read? {t : Text} {x : Float} (h : read? t = some x) {c : Char}
    (hc : c ∈ (t.dropWhile Char.isDigit).head?) : c = '.' ∨ c = 'e' ∨ c = 'E' := by
  obtain ⟨n, hn, -⟩ := read?_eq_some_iff.mp h
  cases hn with
  | @parts whole fraction point power exponent hwhole hfraction hexponent =>
    have hpower := head?_power hexponent (show Ends [] by simp [Ends])
    rw [List.append_nil] at hpower
    rw [Text.dropWhile_append hwhole (head?_point hfraction fun c hc => (hpower c hc).1)] at hc
    cases hfraction with
    | point => exact .inl (Option.mem_some_iff.mp hc).symm
    | none =>
      cases hexponent with
      | none => cases hc
      | power hletter =>
        obtain rfl := Option.mem_some_iff.mp hc
        exact .inr hletter

theorem Number.mark_of_read? {t : Text} {x : Float} (h : read? t = some x) {c : Char}
    (hc : c ∈ mark? t) : c = '.' ∨ c = 'e' ∨ c = 'E' := by
  unfold read? at h
  split at h
  case h_1 u =>
    obtain ⟨y, hy, -⟩ := Option.map_eq_some_iff.mp h
    exact Numeral.mark_of_read? hy hc
  case h_2 u => exact Numeral.mark_of_read? h hc
  case h_3 hminus hplus =>
    rw [mark?_of_unsigned hminus hplus] at hc
    exact Numeral.mark_of_read? h hc

theorem Duration.mark_of_unsigned? {t : Text} {x : Float} (h : unsigned? t = some x) :
    (t.dropWhile Char.isDigit).head? = some ':' := by
  unfold unsigned? at h
  obtain ⟨hours, -, h⟩ := Option.bind_eq_some_iff.mp h
  obtain ⟨minutes, hminutes, -⟩ := Option.bind_eq_some_iff.mp h
  obtain ⟨rest, hrest, -⟩ := Option.bind_eq_some_iff.mp hminutes
  rw [← Text.drop_length_takeWhile, Text.after?_eq_some_iff.mp hrest]
  rfl

theorem Duration.mark_of_read? {t : Text} {x : Float} (h : read? t = some x) :
    mark? t = some ':' := by
  unfold read? at h
  split at h
  case h_1 u =>
    obtain ⟨y, hy, -⟩ := Option.map_eq_some_iff.mp h
    exact mark_of_unsigned? hy
  case h_2 u => exact mark_of_unsigned? h
  case h_3 hminus hplus => rw [mark?_of_unsigned hminus hplus, mark_of_unsigned? h]

/-- A date shows its first dash or a bracket. -/
theorem Timestamp.mark_of_read? {t : Text} {stamp : Timestamp} (htrim : Text.trim t = t)
    (h : read? t = some stamp) : ∃ c ∈ mark? t, c = '-' ∨ c = '<' ∨ c = '[' := by
  unfold read? at h
  rw [htrim] at h
  split at h
  case h_1 inner hinner =>
    rcases unbracket?_eq_some_iff.mp hinner with rfl | rfl
    · exact ⟨'<', rfl, .inr (.inl rfl)⟩
    · exact ⟨'[', rfl, .inr (.inr rfl)⟩
  case h_2 =>
    unfold readPlain? at h
    obtain ⟨⟨date, rest⟩, hdate, -⟩ := Option.bind_eq_some_iff.mp h
    obtain ⟨year, after, hyear, rfl⟩ := exists_of_date? hdate
    have hdrop : (year ++ '-' :: after).dropWhile Char.isDigit = '-' :: after :=
      Text.dropWhile_append hyear.digits (by simp)
    have hhead := hyear.isDigit_of_mem_head? (by decide) ('-' :: after)
    have hne {sign : Char} (hsign : sign.isDigit = false) (u : Text) :
        year ++ '-' :: after ≠ sign :: u := by
      intro heq
      rw [heq] at hhead
      simpa [hsign] using hhead sign rfl
    rw [mark?_of_unsigned (hne rfl) (hne rfl), hdrop]
    exact ⟨'-', rfl, .inl rfl⟩

/-! ## Kinds -/

namespace Value

/-- What a text may be read as. -/
inductive Kind where
  | number
  | date
  | duration
deriving DecidableEq

namespace Kind

def all : List Kind := [number, date, duration]

/-- The value of a text as one of the kind. -/
def read? : Kind → Text → Option Value
  | number, t => (Number.read? t).map .number
  | date, t => (Timestamp.read? t).map .date
  | duration, t => (Duration.read? t).map .duration

/-- The seconds that a text stands for as one of the kind. -/
def seconds? : Kind → Text → Option Float
  | number, _ => none
  | date, t => (Timestamp.read? t).map fun stamp => stamp.moment.toDays * Moment.secondsPerDay
  | duration, t => Duration.read? t

/-- The marks that texts of a kind may have. A number may end after its digits. -/
def marks : Kind → List (Option Char)
  | number => [none, some '.', some 'e', some 'E']
  | date => [some '-', some '<', some '[']
  | duration => [some ':']

theorem mark_mem {k : Kind} {t : Text} (htrim : Text.trim t = t) (h : (k.read? t).isSome) :
    mark? t ∈ k.marks := by
  cases k with
  | number =>
    obtain ⟨x, hx⟩ := Option.isSome_iff_exists.mp (Option.isSome_map ▸ h)
    cases hmark : mark? t with
    | none => simp [marks]
    | some c => simpa [marks] using Number.mark_of_read? hx hmark
  | date =>
    obtain ⟨stamp, hstamp⟩ := Option.isSome_iff_exists.mp (Option.isSome_map ▸ h)
    obtain ⟨c, hc, hcases⟩ := Timestamp.mark_of_read? htrim hstamp
    rw [Option.mem_def.mp hc]
    simpa [marks] using hcases
  | duration =>
    obtain ⟨x, hx⟩ := Option.isSome_iff_exists.mp (Option.isSome_map ▸ h)
    simp [marks, Duration.mark_of_read? hx]

theorem eq_of_mem_marks {k l : Kind} {mark : Option Char} (hk : mark ∈ k.marks)
    (hl : mark ∈ l.marks) : k = l := by
  have hall : ∀ k l : Kind, ∀ mark ∈ k.marks, mark ∈ l.marks → k = l := by
    intro k l
    cases k <;> cases l <;> decide
  exact hall k l mark hk hl

/-- A text is of one kind at most. -/
theorem eq_of_isSome {k l : Kind} {t : Text} (hk : (k.read? (Text.trim t)).isSome)
    (hl : (l.read? (Text.trim t)).isSome) : k = l :=
  eq_of_mem_marks (mark_mem (Text.trim_trim t) hk) (mark_mem (Text.trim_trim t) hl)

theorem isSome_read?_of_seconds? {k : Kind} {t : Text} (h : (k.seconds? t).isSome) :
    (k.read? t).isSome := by
  cases k with
  | number => cases h
  | date => simpa [seconds?, read?] using h
  | duration => simpa [seconds?, read?] using h

end Kind

/-! ## Orders of the kinds -/

/-- If at most one of the items gives a result, their order does not matter. -/
theorem findSome?_eq_of_perm {α β : Type} {f : α → Option β} {l l' : List α} (h : l.Perm l')
    (hone : ∀ a b, (f a).isSome → (f b).isSome → a = b) : l.findSome? f = l'.findSome? f := by
  induction h with
  | nil => rfl
  | cons a _ ih => rw [List.findSome?_cons, List.findSome?_cons, ih]
  | swap a b l =>
    simp only [List.findSome?_cons]
    cases ha : f a with
    | none => rfl
    | some x =>
      cases hb : f b with
      | none => rfl
      | some y =>
        obtain rfl := hone a b (by simp [ha]) (by simp [hb])
        exact hb.symm.trans ha
  | trans _ _ ih ih' => exact ih.trans ih'

/-- The value of a trimmed text that is not blank, if the kinds are tried in an order. -/
def recognizeIn (order : List Kind) (t : Text) : Value :=
  (order.findSome? fun k => k.read? t).getD (text t)

/-- A cell as `ofCell` reads it, if the kinds are tried in an order. -/
def ofCellIn (order : List Kind) (mode : CellMode) (cell : Text) : Value :=
  let t := Text.trim cell
  let value :=
    if t = [] then (if mode.keepEmpty then number notANumber else empty) else recognizeIn order t
  if mode.numbersOnly then value.toNumeric else value

/-- A sort key for times, if the kinds are tried in an order. -/
def timeKeyIn (order : List Kind) (cell : Text) : SortValue :=
  .number ((order.findSome? fun k => k.seconds? (Text.trim cell)).getD 0)

theorem ofCell_eq (mode : CellMode) (cell : Text) : ofCell mode cell = ofCellIn Kind.all mode cell := by
  have hrecognize (t : Text) : recognize t = recognizeIn Kind.all t := by
    unfold recognize recognizeIn
    cases hn : Number.read? t <;> cases hd : Timestamp.read? t <;> cases hs : Duration.read? t <;>
      simp [Kind.all, Kind.read?, hn, hd, hs]
  simp only [ofCell, ofCellIn, hrecognize]

theorem extract_time_eq (cell : Text) :
    SortKey.time.extract cell = timeKeyIn [.date, .duration] cell := by
  unfold SortKey.extract timeKeyIn
  cases hd : Timestamp.read? (Text.trim cell) <;> cases hs : Duration.read? (Text.trim cell) <;>
    simp [Kind.seconds?, hd, hs]

/-- At most one of the kinds takes a text. So neither the value of a cell nor its key for times
depends on the order in which the kinds are tried. -/
theorem ofCell_any_order (cell : Text) :
    (Kind.all.countP fun k => (k.read? (Text.trim cell)).isSome) ≤ 1 ∧
      (∀ order : List Kind, order.Perm Kind.all → ∀ mode, ofCellIn order mode cell = ofCell mode cell) ∧
      ∀ order : List Kind, order.Perm [.date, .duration] →
        timeKeyIn order cell = SortKey.time.extract cell := by
  refine ⟨?_, ?_, ?_⟩
  · have hone {k l : Kind} (hne : k ≠ l) :
        ¬ ((k.read? (Text.trim cell)).isSome ∧ (l.read? (Text.trim cell)).isSome) :=
      fun h => hne (Kind.eq_of_isSome h.1 h.2)
    have hnumber := hone (k := .number) (l := .date) (by decide)
    have hdate := hone (k := .date) (l := .duration) (by decide)
    have hduration := hone (k := .duration) (l := .number) (by decide)
    simp only [Kind.all, List.countP_cons, List.countP_nil]
    split_ifs <;> simp_all
  · intro order horder mode
    rw [ofCell_eq, ofCellIn, ofCellIn, recognizeIn, recognizeIn,
      findSome?_eq_of_perm horder fun k l => Kind.eq_of_isSome]
  · intro order horder
    rw [extract_time_eq, timeKeyIn, timeKeyIn, findSome?_eq_of_perm horder fun k l hk hl =>
      Kind.eq_of_isSome (Kind.isSome_read?_of_seconds? hk) (Kind.isSome_read?_of_seconds? hl)]

/-- A negative time is no number and no date, whatever is tried first. -/
theorem ofCell_any_order_negative_time :
    ([.duration, .date, .number] : List Kind).Perm Kind.all ∧
      ([.duration, .date] : List Kind).Perm [.date, .duration] ∧
      ofCellIn [.duration, .date, .number] .plain "-1:30".toList = ofCell .plain "-1:30".toList ∧
      timeKeyIn [.duration, .date] "-1:30".toList = SortKey.time.extract "-1:30".toList := by
  have horder : ([.duration, .date, .number] : List Kind).Perm Kind.all := by decide
  have htimes : ([.duration, .date] : List Kind).Perm [.date, .duration] := by decide
  have h := ofCell_any_order "-1:30".toList
  exact ⟨horder, htimes, h.2.1 _ horder .plain, h.2.2 _ htimes⟩

end Value

end Rollup
