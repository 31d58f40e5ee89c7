import Rollup.Failure
import Rollup.Format.Style
import Rollup.Settings.Toml

/-! # Settings

A settings file changes the defaults of a run:

    [format]
    precision = 6
    angle_mode = "radians"
    float_style = { fixed = 2 }
    prefer_fraction = true

    [aggregate]
    hline = 1

A file that cannot be used leaves the defaults as they are and gives a warning.
-/

namespace Rollup

structure Settings where
  format : FormatDefaults := {}
  separatorDepth : Option Nat := none
deriving DecidableEq, Repr

namespace Settings

/-! ## Reading -/

def natural? : Toml → Option Nat
  | .integer n => if 0 ≤ n then some n.toNat else none
  | _ => none

/-- Whether a value says nothing more than that it is there. -/
def isNothing : Option Toml → Bool
  | none => true
  | some (.array items) => items.isEmpty
  | some (.table _ entries) => entries.isEmpty
  | some _ => false

/-- A choice, and what belongs to it: a text, or a table with one entry. -/
def choice? : Toml → Option (Text × Option Toml)
  | .text t => some (t, none)
  | .table _ [(key, value)] => some (key, some value)
  | _ => none

def angleMode? (value : Toml) : Option AngleMode := do
  let (name, payload) ← choice? value
  if !isNothing payload then none
  else if name = "degrees".toList then some .degrees
  else if name = "radians".toList then some .radians
  else none

/-- The digits after the point of a style. They take one byte. -/
def styleDigits? (payload : Option Toml) : Option Nat :=
  (payload.bind natural?).filter (· < 256)

def floatStyle? (value : Toml) : Option FloatStyle := do
  let (name, payload) ← choice? value
  if name = "normal".toList then (if isNothing payload then some .normal else none)
  else if name = "fixed".toList then (styleDigits? payload).map .fixed
  else if name = "scientific".toList then (styleDigits? payload).map .scientific
  else if name = "engineering".toList then (styleDigits? payload).map .engineering
  else none

def truth? : Toml → Option Bool
  | .boolean b => some b
  | _ => none

/-- Reads an entry, or takes the default when there is none. -/
def entryOr? {α : Type} (entries : Toml.Entries) (key : String) (default : α)
    (read? : Toml → Option α) : Option α :=
  match entries.lookup key.toList with
  | none => some default
  | some value => read? value

/-- Reads the formats. Entries that are not known are left out. -/
def format? : Toml → Option FormatDefaults
  | .table _ entries => do
    let defaults : FormatDefaults := {}
    return {
      precision := ← entryOr? entries "precision" defaults.precision natural?
      angleMode := ← entryOr? entries "angle_mode" defaults.angleMode angleMode?
      floatStyle := ← entryOr? entries "float_style" defaults.floatStyle floatStyle?
      preferFraction := ← entryOr? entries "prefer_fraction" defaults.preferFraction truth? }
  | _ => none

/-- Whether there are no entries but these. -/
def onlyHas (keys : List String) (entries : Toml.Entries) : Bool :=
  entries.all fun entry => (keys.map String.toList).contains entry.1

/-- Reads how summaries are separated. -/
def separatorDepth? : Toml → Option (Option Nat)
  | .table _ entries =>
    if onlyHas ["hline"] entries then entryOr? entries "hline" none fun n => (natural? n).map some
    else none
  | _ => none

/-- Reads a settings file. -/
def read? (t : Text) : Option Settings := do
  let entries ← Toml.read? t
  if onlyHas ["format", "aggregate"] entries then
    return {
      format := ← entryOr? entries "format" {} format?
      separatorDepth := ← entryOr? entries "aggregate" none separatorDepth? }
  else none

/-! ## Loading -/

/-- Why a settings file was not used. -/
inductive Warning where
  | notFound (path : Text)
  | tooLarge (path : Text) (size : Nat)
  | unreadable (path : Text) (problem : ReadProblem)
  | malformed (path : Text)
deriving DecidableEq, Repr

/-- The most bytes that a settings file may have. -/
def maxBytes : Nat := Nat.pow 2 20

def Warning.message : Warning → Text
  | notFound path => "Config file not found: ".toList ++ path
  | tooLarge path size =>
    "Refusing to read ".toList ++ path ++ ": file too large (".toList ++ Text.ofNat size ++
      " bytes, max ".toList ++ Text.ofNat maxBytes ++ ")".toList
  | unreadable path problem =>
    "Failed to read ".toList ++ path ++ ": ".toList ++ problem.message
  | malformed path => "Failed to parse ".toList ++ path ++ ": not a settings file".toList

/-- The settings in a file, from what was read of it. Only a file that was asked for has to exist.
-/
def ofFile (path : Text) (wanted : Bool) (content : Except ReadProblem Text) :
    Settings × List Warning :=
  match content with
  | .error .missing => ({}, if wanted then [.notFound path] else [])
  | .error problem => ({}, [.unreadable path problem])
  | .ok t =>
    if maxBytes < Text.byteSize t then ({}, [.tooLarge path (Text.byteSize t)])
    else
      match read? t with
      | some settings => (settings, [])
      | none => ({}, [.malformed path])

end Settings

end Rollup
