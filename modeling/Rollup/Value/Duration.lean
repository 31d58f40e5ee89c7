import Rollup.Number.Numeral

/-! # Elapsed time as text

An elapsed time is `h:mm` or `h:mm:ss`, with any number of hours, an optional sign and optional
decimals of the seconds.
-/

namespace Rollup.Duration

/-- Exactly two digits at the start, and what follows them. -/
def twoDigits? : Text → Option (Text × Text)
  | c :: d :: t => if c.isDigit && d.isDigit then some ([c, d], t) else none
  | _ => none

/-- Seconds up to the end of the text: two digits, and perhaps a point and more digits. -/
def seconds? (t : Text) : Option Float := do
  let (whole, rest) ← twoDigits? t
  match rest with
  | [] => Numeral.value? ⟨whole, [], 0⟩
  | '.' :: fraction =>
    if fraction ≠ [] ∧ fraction.all Char.isDigit then Numeral.value? ⟨whole, fraction, 0⟩ else none
  | _ => none

/-- Reads an elapsed time without a sign, in seconds. -/
def unsigned? (t : Text) : Option Float := do
  let hourDigits := t.takeWhile Char.isDigit
  let hours ← Numeral.value? ⟨hourDigits, [], 0⟩
  let (minuteDigits, rest) ← (Text.after? [':'] (t.drop hourDigits.length)).bind twoDigits?
  let minutes ← Numeral.value? ⟨minuteDigits, [], 0⟩
  let seconds ← if rest = [] then some 0 else (Text.after? [':'] rest).bind seconds?
  if minutes ≥ 60 || seconds ≥ 60 then none
  else some (hours * 3600 + minutes * 60 + seconds)

/-- Reads an elapsed time, in seconds. -/
def read? : Text → Option Float
  | '-' :: t => (unsigned? t).map (- ·)
  | '+' :: t => unsigned? t
  | t => unsigned? t

end Rollup.Duration
