import Groundplan.Settings.Basic
import Groundplan.Storage.Disk
import Groundplan.Yaml.Value

/-!
Finding settings.  They belong to the nearest directory, from the current one upwards,
that is marked for them; paths in them start from there.  An argument has precedence over
every setting and is taken as it is.
-/

namespace Groundplan
namespace Settings

open Storage

inductive Fault
  | storage (failure : Failure)
  | yaml (fault : Yaml.Fault)
  | noMapping (path : Path)
  | violations (vs : List Violation)
  /-- No specification is named and the usual one does not exist. -/
  | noSpec (path : Path)
  | credentials
  deriving DecidableEq

def Fault.message : Fault → String
  | .storage failure => failure.message
  | .yaml fault => fault.message
  | .noMapping path => path.toText ++ " must contain a mapping"
  | .violations vs => Violation.messages vs
  | .noSpec path =>
    "No SCORE file specified and " ++ path.toText ++ " does not exist. " ++
      "Pass a spec file or set spec_file in .scoreform/config.yaml."
  | .credentials =>
    "--db-credentials must be one of: " ++ ", ".intercalate (Credentials.words.map Prod.fst)

/-- The directory that marks where settings belong. -/
def marker : String := ".scoreform"

def absolute (location : Location) : Path := ⟨"/", location⟩

/-- The location of a path from a directory, by its components alone. -/
def resolve (cwd : Location) (p : Path) : Location :=
  p.parts.foldl (fun at_ part => if part = ".." then at_.dropLast else at_ ++ [part])
    (if p.isAbsolute then [] else cwd)

/-- A location and those above it, the nearest first. -/
def upwards (location : Location) : List Location :=
  (List.range (location.length + 1)).map fun k => location.take (location.length - k)

/-- The nearest marked directory from a given one upwards. -/
def findRoot (d : Disk) (start : Path) : Option Path :=
  ((upwards (resolve d.cwd start)).find? fun l => d.isDirectory ((absolute l).child marker)).map
    absolute

/-- What a file of settings holds.  A file that is not there and an empty one hold
nothing. -/
def readFile (d : Disk) (path : Path) : Except Fault (List (Datum × Datum)) :=
  if d.isPresent path then do
    let text ← (d.readText path).mapError fun e => .storage ⟨e, path⟩
    let document ← (Yaml.parse text).mapError .yaml
    if document.isNothing then return []
    match document with
    | .mapping entries => return entries
    | _ => throw (.noMapping path)
  else .ok []

/-- The settings of a marked directory, or those of none. -/
def load (d : Disk) (environment : Environment) (root : Option Path) : Except Fault Settings := do
  let entries ← match root with
    | some root => readFile d ((root.child marker).child "config.yaml")
    | none => pure []
  match decode (override environment entries) with
  | .ok s => return s
  | .bad vs => throw (.violations vs)

/-- The directory that paths in settings start from, and the settings. -/
def current (d : Disk) (environment : Environment) : Except Fault (Path × Settings) := do
  let root := findRoot d ⟨"", []⟩
  let settings ← load d environment root
  return (root.getD (absolute d.cwd), settings)

/-- An argument that is given.  An empty one is not. -/
def given (argument : Option String) : Option Path :=
  argument.bind fun a => if a.isEmpty then none else some (Path.parse a)

/-- The specification to use; one that is not named must exist. -/
def specPath (d : Disk) (environment : Environment) (argument : Option String) : Except Fault Path :=
  match given argument with
  | some p => .ok p
  | none => do
    let (base, settings) ← current d environment
    let path := base.join (.parse settings.specFile)
    if d.isPresent path then return path else throw (.noSpec path)

/-- The directory for generated files. -/
def terraformPath (d : Disk) (environment : Environment) (argument : Option String) :
    Except Fault Path :=
  match given argument with
  | some p => .ok p
  | none => do
    let (base, settings) ← current d environment
    return base.join (.parse settings.terraformDir)

/-- The source of master passwords. -/
def credentialsMode (d : Disk) (environment : Environment) (argument : Option String) :
    Except Fault Credentials :=
  match argument with
  | none => do
    let (_, settings) ← current d environment
    return settings.credentials
  | some word =>
    match Credentials.ofWord? word with
    | some c => .ok c
    | none => .error .credentials

end Settings
end Groundplan
