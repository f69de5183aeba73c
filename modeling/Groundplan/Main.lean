import Groundplan.Command.Run

/-!
The command line.  The part of the machine that a command can depend on is read into a
disk, the command runs on that disk, and what it changed there is written back.

This host runs no other programs, so for it no tool of a rollout is installed.
-/

namespace Groundplan
namespace Machine

open Storage Command

/-- What stands at a path. -/
def probe (path : Path) : IO (Option Entry) := do
  try
    let bytes ← IO.FS.readBinFile path.toText
    return some (.file bytes.toList)
  catch e =>
    match e with
    | .noFileOrDirectory _ _ _ => return none
    | .resourceVanished _ _ => return none
    | _ => return some .directory

/-- Adds what stands at a location, and the directories above it. -/
def load (d : Disk) (location : Location) : IO Disk := do
  match ← probe (Settings.absolute location) with
  | none => return d
  | some e =>
    let above := (Settings.upwards location).drop 1
    return above.foldl (fun d l => if l = [] then d else d.put l .directory) (d.put location e)

def loadAll (d : Disk) (locations : List Location) : IO Disk := locations.foldlM load d

/-- The places where settings may be found. -/
def settingsLocations (cwd : Location) : List Location :=
  (Settings.upwards cwd).flatMap fun l =>
    [l ++ [Settings.marker], l ++ [Settings.marker, "config.yaml"]]

/-- The places that the settings name. -/
def namedLocations (d : Disk) (environment : Environment) : List Location :=
  match Settings.current d environment with
  | .error _ => []
  | .ok (base, settings) =>
    [settings.specFile, settings.terraformDir].map fun p =>
      Settings.resolve d.cwd (base.join (.parse p))

def readEnvironment : IO Environment :=
  (Settings.environmentNames.map Prod.fst).filterMapM fun name => do
    return (← IO.getEnv name).map fun value => (name, value)

def host (disk : Disk) (environment : Environment) : Host Unit where
  disk
  environment
  isInstalled _ := false
  respond _ := fun s => (.missing, s)
  now := fun s => (.zero, s)
  pass _ := id
  outside := ()

/-- Writes what has changed on a disk. -/
def commit (old new : Disk) : IO Unit := do
  for (location, entry) in new.entries.reverse do
    if old.entry? location ≠ some entry then
      let path := (Settings.absolute location).toText
      match entry with
      | .directory => IO.FS.createDirAll path
      | .file bytes => IO.FS.writeBinFile path ⟨bytes.toArray⟩

def print (stream : IO.FS.Stream) (s : Shown) : IO Unit :=
  match s with
  | .text t => stream.putStr t
  | .row cells => stream.putStr ("  ".intercalate cells ++ "\n")
  | .heading title => stream.putStr ("--- " ++ title ++ " ---\n")
  | .details t => stream.putStr (t ++ "\n")

/-- A first run on what is known tells which places it would write to.  They are read
before the run that counts. -/
def run (arguments : List String) : IO UInt32 := do
  let cwd := (Path.parse (toString (← IO.currentDir))).parts
  let environment ← readEnvironment
  let known ← loadAll ⟨[], cwd⟩ (cwd :: settingsLocations cwd)
  let known ← loadAll known (arguments.map fun a => Settings.resolve cwd (.parse a))
  let known ← loadAll known (namedLocations known environment)
  let trial := Command.run (host known environment) arguments
  let known ← loadAll known (trial.disk.entries.map Prod.fst)
  let outcome := Command.run (host known environment) arguments
  commit known outcome.disk
  outcome.out.forM (print (← IO.getStdout))
  outcome.err.forM (print (← IO.getStderr))
  return (outcome.exit % 256).toNat.toUInt32

end Machine
end Groundplan

def main (arguments : List String) : IO UInt32 := Groundplan.Machine.run arguments
