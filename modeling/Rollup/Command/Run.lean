import Rollup.Command.Arguments
import Rollup.Settings.Basic
import Rollup.Summary.Basic
import Rollup.Table.Csv
import Rollup.Table.Pipe
import Rollup.Text.Case

/-! # Running commands

A run depends on the arguments, on what the files hold and on the standard input, and filters on the
engine. It has no report when the result has a cell that is too wide to be formatted.
-/

namespace Rollup

/-- What a run reads. -/
structure Surroundings where
  file : Text → Except ReadProblem Text
  input : Text
  /-- The settings file of the user. -/
  userSettings : Option Text

/-- What a run leaves: the exit code, the standard output, and the messages. -/
structure Report where
  code : Nat
  output : Text
  messages : List Text
deriving DecidableEq, Repr

namespace Source

/-- The file name that stands for the standard input. -/
def standardInput : Text := ['-']

def isInput (s : Source) : Bool := s.file = standardInput

/-- The last part of a path. -/
def fileName (path : Text) : Text :=
  (((Text.split '/' path).filter fun part => part ≠ [] ∧ part ≠ ['.']).getLast?).getD []

/-- What follows the last point of a file name, unless the name starts with it. -/
def extension? (path : Text) : Option Text :=
  let pieces := Text.split '.' (fileName path)
  if pieces.dropLast.all (· = []) && pieces.length ≤ 2 then none else pieces.getLast?

/-- Whether a table is read and written as comma-separated values. -/
def isCsv (s : Source) : Bool :=
  s.csv || (extension? s.file).any fun e => Text.asciiLower e = "csv".toList

/-- Writes a table in the form in which the source was read. -/
def render? (s : Source) (t : Table) : Option Text :=
  if s.isCsv then some (Csv.render t) else Pipe.render? t

end Source

namespace Command

/-- The name under which messages and settings files appear. -/
def programName : Text := "tallyline".toList

/-! ## Tables -/

/-- Why a run ends, with the file that it was reading. -/
structure RunFailure where
  file : Option Text
  cause : Failure
deriving DecidableEq, Repr

namespace RunFailure

/-- The cause, below it what it comes from. -/
def causes : Failure → List Text
  | .unreadable problem => [Failure.message (.unreadable problem), problem.message]
  | failure => [failure.message]

def message (f : RunFailure) : Text :=
  let context := f.file.map fun path => "Failed to read ".toList ++ path
  Text.joinWith ": ".toList (context.toList ++ causes f.cause)

end RunFailure

/-- The content of the file of a source, and the file that failures of reading it name. -/
def content (around : Surroundings) (s : Source) : Except ReadProblem Text × Option Text :=
  if s.isInput then (.ok around.input, none) else (around.file s.file, some s.file)

/-- Reads the table of a source. -/
def load (around : Surroundings) (s : Source) : Except RunFailure Table :=
  let (content, file) := content around s
  match content with
  | .error problem => .error ⟨file, .unreadable problem⟩
  | .ok document =>
    if s.isCsv then
      match Csv.read s.hasHeader document with
      | .error failure => .error ⟨file, failure⟩
      | .ok t => (Csv.find t s.table).mapError fun failure => ⟨none, failure⟩
    else ((Pipe.read document).resolve s.table).mapError fun failure => ⟨none, failure⟩

/-- Reads a table, changes it and writes the result. -/
def transform (around : Surroundings) (s : Source) (f : Table → Except Failure Table) :
    Except RunFailure (Option Text) := do
  let t ← load around s
  let result ← (f t).mapError fun failure => ⟨none, failure⟩
  return s.render? result

/-! ## Commands -/

/-- One line about a function. -/
def functionLine (f : Function) : Text :=
  let kind := if f.isAggregate then "aggregate" else "math"
  Text.padRight 8 f.name ++ ' ' :: Text.padRight 10 kind.toList ++ ' ' :: f.description.toList ++
    ['\n']

def functionList : Text := Function.all.flatMap functionLine

/-- The settings of a run, from the file that is asked for or from that of the user. -/
def settings (around : Surroundings) (asked : Option Text) : Settings × List Settings.Warning :=
  match asked, around.userSettings with
  | some path, _ => Settings.ofFile path true (around.file path)
  | none, some path => Settings.ofFile path false (around.file path)
  | none, none => ({}, [])

def warningLine (w : Settings.Warning) : Text :=
  "[WARN] ".toList ++ programName ++ ": ".toList ++ w.message

/-- The report of a run after some warnings. -/
def report (warnings : List Settings.Warning) (result : Except RunFailure (Option Text)) :
    Option Report :=
  match result with
  | .ok output? => output?.map fun output => ⟨0, output, warnings.map warningLine⟩
  | .error failure =>
    some ⟨1, [], warnings.map warningLine ++ ["Error: ".toList ++ failure.message]⟩

def run (E : Filter.Engine) (around : Surroundings) : Command → Option Report
  | functions => report [] (.ok (some functionList))
  | transpose source columns =>
    report [] (transform around source (·.transposed E ⟨columns, source.rowFilter⟩))
  | aggregate source columns depth settingsFile =>
    let (settings, warnings) := settings around settingsFile
    let request : SummaryRequest :=
      ⟨columns, source.rowFilter, depth.or settings.separatorDepth, settings.format⟩
    report warnings (transform around source (·.summarize E request))

/-- The files that a command reads. -/
def files (userSettings : Option Text) : Command → List Text
  | functions => []
  | transpose source _ => [source.file]
  | aggregate source _ _ settingsFile => source.file :: (settingsFile.or userSettings).toList

/-- Whether a command reads the standard input. -/
def readsInput : Command → Bool
  | functions => false
  | transpose source _ | aggregate source _ _ _ => source.isInput

def usage : Text :=
  "usage: (aggregate | transpose | functions) [options] [file]".toList

/-- The report on a command line that is not understood. -/
def usageReport : Report := ⟨2, [], [usage]⟩

end Command

end Rollup
