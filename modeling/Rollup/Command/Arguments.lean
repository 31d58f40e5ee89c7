import Rollup.Text.Basic

/-! # Command lines

A command line is a command with options and the file it reads. Options are long, such as `--cols=x`
or `--cols x`, or one letter, such as `-c x` or `-cx`, and letters without a value may be joined.
After `--` everything is a file. A command line that is not understood gives nothing.
-/

namespace Rollup

/-- The table that a command reads. -/
structure Source where
  file : Text
  /-- The name of the table in the file. The empty name stands for the first one. -/
  table : Text
  csv : Bool
  hasHeader : Bool
  rowFilter : Option Text
deriving DecidableEq, Repr

inductive Command where
  | aggregate (source : Source) (columns : Text) (separatorDepth : Option Nat)
    (settings : Option Text)
  | transpose (source : Source) (columns : Option Text)
  | functions
deriving DecidableEq, Repr

namespace Command

/-! ## Options -/

inductive Opt where
  | table
  | csv
  | noHeader
  | condition
  | columns
  | depth
  | settings
  | verbose
deriving DecidableEq, Repr

namespace Opt

def long? (name : Text) : Option Opt :=
  [("table", table), ("csv", csv), ("no-header", noHeader), ("cond", condition),
    ("cols", columns), ("hline", depth), ("config", settings), ("verbose", verbose)].findSome?
    fun (known, opt) => if name = known.toList then some opt else none

def short? : Char → Option Opt
  | 't' => some table
  | 'c' => some columns
  | 'v' => some verbose
  | _ => none

def takesValue : Opt → Bool
  | csv | noHeader | verbose => false
  | _ => true

/-- Whether an option may be given more than once. -/
def isRepeatable (o : Opt) : Bool := o = verbose

end Opt

/-- The options of the command with this name. -/
def optionsOf? (name : Text) : Option (List Opt) :=
  let reading : List Opt := [.table, .csv, .noHeader, .condition, .columns, .verbose]
  if name = "aggregate".toList then some (reading ++ [.depth, .settings])
  else if name = "transpose".toList then some reading
  else if name = "functions".toList then some [.verbose]
  else none

/-! ## Words -/

/-- What one argument may hold. -/
inductive Word where
  | given (o : Opt) (value : Text)
  /-- An option whose value is the next argument. -/
  | awaiting (o : Opt)
  | plain (t : Text)
  /-- A plain argument after `--`, which is no value of an option. -/
  | trailing (t : Text)
deriving DecidableEq, Repr

/-- A long option, given after its dashes. -/
def longWord? (allowed : List Opt) (t : Text) : Option Word := do
  let name := t.takeWhile (· ≠ '=')
  let o ← Opt.long? name
  if !allowed.contains o then none
  else
    match o.takesValue, t.drop name.length with
    | true, _ :: value => some (.given o value)
    | true, [] => some (.awaiting o)
    | false, [] => some (.given o [])
    | false, _ => none

/-- The value joined to a letter, with or without an equals sign. -/
def joinedValue : Text → Text
  | '=' :: value => value
  | value => value

/-- Options of one letter, given after their dash. -/
def shortWords? (allowed : List Opt) : Text → Option (List Word)
  | [] => some []
  | c :: t => do
    let o ← Opt.short? c
    if !allowed.contains o then none
    else if o.takesValue then
      if t = [] then some [.awaiting o] else some [.given o (joinedValue t)]
    else return .given o [] :: (← shortWords? allowed t)

/-- What an argument that is not after `--` holds. A dash alone is plain. -/
def words? (allowed : List Opt) (arg : Text) : Option (List Word) :=
  match arg with
  | '-' :: '-' :: t => (longWord? allowed t).map fun w => [w]
  | '-' :: c :: t => shortWords? allowed (c :: t)
  | arg => some [.plain arg]

/-- What a list of arguments holds. -/
def allWords? (allowed : List Opt) : List Text → Option (List Word)
  | [] => some []
  | arg :: args =>
    if arg = ['-', '-'] then some (args.map .trailing)
    else do return (← words? allowed arg) ++ (← allWords? allowed args)

/-! ## Values -/

/-- Options with their values, and plain arguments, in order. -/
structure Given where
  options : List (Opt × Text)
  files : List Text
deriving DecidableEq, Repr

/-- Gives every option its value. -/
def given? : List Word → Option Given
  | [] => some ⟨[], []⟩
  | .given o value :: ws => (given? ws).map fun g => { g with options := (o, value) :: g.options }
  | .awaiting o :: .plain value :: ws =>
    (given? ws).map fun g => { g with options := (o, value) :: g.options }
  | .awaiting _ :: _ => none
  | .plain t :: ws => (given? ws).map fun g => { g with files := t :: g.files }
  | .trailing t :: ws => (given? ws).map fun g => { g with files := t :: g.files }

namespace Given

def value? (g : Given) (o : Opt) : Option Text := g.options.lookup o

def has (g : Given) (o : Opt) : Bool := (g.value? o).isSome

/-- Whether every option is given once, unless it may be repeated. -/
def isConsistent (g : Given) : Bool :=
  ((g.options.map Prod.fst).filter (!·.isRepeatable)).Nodup

/-- The value of an option that is a whole number, if it is given. -/
def natural? (g : Given) (o : Opt) : Option (Option Nat) :=
  match g.value? o with
  | none => some none
  | some t => (Text.signedToNatBelow? Text.countBound t).map some

/-- The value of an option that is a path, if it is given. -/
def path? (g : Given) (o : Opt) : Option (Option Text) :=
  match g.value? o with
  | some [] => none
  | value => some value

/-- The table that is read. There is one file, and its name is not empty. -/
def source? (g : Given) : Option Source :=
  match g.files with
  | [file] =>
    if file = [] then none
    else some ⟨file, (g.value? .table).getD [], g.has .csv, !g.has .noHeader, g.value? .condition⟩
  | _ => none

end Given

/-- The command with this name and these arguments. -/
def ofGiven? (name : Text) (g : Given) : Option Command := do
  if !g.isConsistent then none
  else if name = "functions".toList then (if g.files = [] then some functions else none)
  else if name = "transpose".toList then return transpose (← g.source?) (g.value? .columns)
  else
    return aggregate (← g.source?) (← g.value? .columns) (← g.natural? .depth)
      (← g.path? .settings)

/-- Reads a command line. Only options that every command has may stand before the command. -/
def read? : List Text → Option Command
  | [] => none
  | arg :: args => do
    match ← words? [.verbose] arg with
    | [.plain name] =>
      let allowed ← optionsOf? name
      ofGiven? name (← given? (← allWords? allowed args))
    | _ => read? args

end Command

end Rollup
