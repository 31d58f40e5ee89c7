import Rollup.Failure
import Rollup.Table.Basic

/-! # Named tables

Tables kept in order, of which each may have a name. The empty name stands for the first one.
-/

namespace Rollup

structure Shelf where
  entries : List (Option Text × Table) := []
deriving DecidableEq, Repr

namespace Shelf

/-- The names that are given, in order. -/
def names (s : Shelf) : List Text := s.entries.filterMap Prod.fst

def find? (s : Shelf) (name : Text) : Option Table :=
  if name = [] then s.entries.head?.map Prod.snd
  else (s.entries.find? fun entry => entry.1 = some name).map Prod.snd

/-- The table with a name. -/
def resolve (s : Shelf) (name : Text) : Except Failure Table :=
  match s.find? name with
  | some t => .ok t
  | none => .error (.tableNotFound name)

/-- Puts a table in the place of the first one with its name, or else at the end. -/
def replaceOrAppend (name : Text) (t : Table) :
    List (Option Text × Table) → List (Option Text × Table)
  | [] => [(some name, t)]
  | entry :: entries =>
    if entry.1 = some name then (some name, t) :: entries
    else entry :: replaceOrAppend name t entries

/-- Stores a table under a name. -/
def insert (s : Shelf) (name : Text) (t : Table) : Shelf := ⟨replaceOrAppend name t s.entries⟩

end Shelf

end Rollup
