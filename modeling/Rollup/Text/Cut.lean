import Rollup.Text.Basic

/-! # Cutting texts outside quotes

A scan goes through a text with a state and cuts it at some characters, which are left out.
-/

namespace Rollup.Text

/-- The pieces between the characters at which a scan cuts. `step` is the state after a character
and `cuts` tells in which states a character is one to cut at. -/
def splitWhere {σ : Type} (step : σ → Char → σ) (cuts : σ → Char → Bool) (s : σ) :
    Text → List Text
  | [] => [[]]
  | c :: t =>
    let pieces := splitWhere step cuts (step s c) t
    if cuts s c then [] :: pieces else consFirst c pieces

/-! ## Quotes -/

def isQuote (c : Char) : Bool := c = '\'' || c = '"'

/-- The quote that is open after a character, given the one that is open before it. Inside a quote
the other kind of quote is a plain character. -/
def quoteAfter (quote : Option Char) (c : Char) : Option Char :=
  match quote with
  | some q => if c = q then none else some q
  | none => if isQuote c then some c else none

/-- The quote that is open at the end of a text. -/
def openQuote (t : Text) : Option Char := t.foldl quoteAfter none

/-- What stands between two quotes of one kind that enclose the whole text. -/
def unquote? : Text → Option Text
  | [] => none
  | c :: t => if isQuote c then before? c t else none

end Rollup.Text
