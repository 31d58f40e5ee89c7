import Rollup.Command.Run
import Rollup.Script.Evaluate

/-! # The command line program -/

open Rollup

/-- The text of a file, or why it cannot be read. -/
def readText (path : Text) : IO (Except ReadProblem Text) := do
  try
    return .ok (← IO.FS.readFile (String.ofList path)).toList
  catch error =>
    match error with
    | .noFileOrDirectory .. => return .error .missing
    | .inappropriateType .. => return .error .directory
    | error => return .error (.other (toString error).toList)

/-- The place of the settings file of the user. -/
def userSettingsPath : IO (Option Text) := do
  let file := '/' :: Command.programName ++ "/config.toml".toList
  match ← IO.getEnv "XDG_CONFIG_HOME" with
  | some folder => if folder.startsWith "/" then return some (folder.toList ++ file)
  | none => pure ()
  match ← IO.getEnv "HOME" with
  | some home => return some (home.toList ++ "/.config".toList ++ file)
  | none => return none

/-- Runs a command on the files of the system. -/
def perform (c : Command) : IO (Option Report) := do
  let userSettings ← userSettingsPath
  let input ← if c.readsInput then (← IO.getStdin).readToEnd else pure ""
  let contents ← (c.files userSettings).mapM fun path => return (path, ← readText path)
  let file (path : Text) := (contents.lookup path).getD (.error .missing)
  return c.run Script.engine ⟨file, input.toList, userSettings⟩

/-- The exit code of a run without a report. -/
def brokenCode : UInt32 := 101

def main (args : List String) : IO UInt32 := do
  let report? ← match Command.read? (args.map String.toList) with
    | some c => perform c
    | none => pure (some Command.usageReport)
  let some report := report? | return brokenCode
  for message in report.messages do
    IO.eprintln (String.ofList message)
  IO.print (String.ofList report.output)
  return report.code.toUInt32
