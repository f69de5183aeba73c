import Groundplan.Project.Compile
import Groundplan.Spec.File

/-!
Writing a compiled project to a disk.  Every file is written in full; a warning tells
when that changes one.  Nothing is deleted: directories of types that are not used any
more stay and are reported.
-/

namespace Groundplan
namespace Project

open Storage

/-- The outcome of writing.  What was written and said before a failure is kept. -/
structure Writing (α : Type) where
  disk : Disk
  records : List LogRecord
  result : Except Failure α

def overwriteRecord (path : Path) : LogRecord :=
  .warning s!"Overwriting {path.toText}; changes made since the last generate are discarded"

/-- Whether a file that is there holds another text.  It is read as text, so the kind of
its line ends makes no difference. -/
def differs (d : Disk) (path : Path) (content : String) : Except Storage.Fault Bool :=
  if d.isPresent path then (d.readLossyText path).map (· != content) else .ok false

/-- Writes one file into its directory, which is made if necessary. -/
def writeFile (d : Disk) (path : Path) (content : String) : Writing Path :=
  match d.makeDirectories path.parent with
  | (d, .error failure) => ⟨d, [], .error failure⟩
  | (d, .ok _) =>
    match differs d path content with
    | .error e => ⟨d, [], .error ⟨e, path⟩⟩
    | .ok changed =>
      let records := if changed then [overwriteRecord path] else []
      match d.writeText path content with
      | .error e => ⟨d, records, .error ⟨e, path⟩⟩
      | .ok d => ⟨d, records, .ok path⟩

/-- Writes files one after the other up to the first failure. -/
def writeFiles (d : Disk) (root : Path) : List (String × String) → Writing (List Path)
  | [] => ⟨d, [], .ok []⟩
  | (name, content) :: rest =>
    let w := writeFile d (root.join (.parse name)) content
    match w.result with
    | .error e => ⟨w.disk, w.records, .error e⟩
    | .ok path =>
      let more := writeFiles w.disk root rest
      ⟨more.disk, w.records ++ more.records, more.result.map (path :: ·)⟩

theorem writeFiles_cons (d : Disk) (root : Path) (f : String × String)
    (rest : List (String × String)) :
    writeFiles d root (f :: rest) =
      match (writeFile d (root.join (.parse f.1)) f.2).result with
      | .error e =>
        ⟨(writeFile d (root.join (.parse f.1)) f.2).disk,
          (writeFile d (root.join (.parse f.1)) f.2).records, .error e⟩
      | .ok path =>
        ⟨(writeFiles (writeFile d (root.join (.parse f.1)) f.2).disk root rest).disk,
          (writeFile d (root.join (.parse f.1)) f.2).records ++
            (writeFiles (writeFile d (root.join (.parse f.1)) f.2).disk root rest).records,
          (writeFiles (writeFile d (root.join (.parse f.1)) f.2).disk root rest).result.map
            (path :: ·)⟩ := by
  rewrite [writeFiles.eq_def]
  dsimp only

/-- Warnings about module directories that the project does not use. -/
def staleRecords (d : Disk) (root : Path) (types : List String) : List LogRecord :=
  let modules := root.child "modules"
  match d.locate modules with
  | .error _ => []
  | .ok l =>
    if d.isDirectoryAt l then
      ((d.children l).filter fun (name, e) => e == .directory && !types.contains name).map
        fun (name, _) => .warning
          s!"{(modules.child name).toText} is not generated from this spec any more; remove it if no longer needed"
    else []

/-- Writes every file of a project below a directory.  Gives the written paths. -/
def write (d : Disk) (root : Path) (p : Project) : Writing (List Path) :=
  let w := writeFiles d root p.files
  match w.result with
  | .error e => ⟨w.disk, w.records, .error e⟩
  | .ok paths =>
    let total := LogRecord.debug s!"Wrote {paths.length} files to {root.toText}"
    ⟨w.disk, w.records ++ total :: staleRecords w.disk root (p.modules.map ModuleFiles.typeName),
      .ok paths⟩

/-- Why generating fails. -/
inductive GenerateFault
  | file (fault : FileFault)
  | compile (fault : Fault)
  | storage (failure : Failure)

/-- The outcome of generating. -/
structure Generation where
  library : Module.Library
  disk : Disk
  records : List LogRecord
  result : Except GenerateFault Project

/-- Reads a specification, compiles it and writes the project.  Nothing is written unless
all of it compiles. -/
def generate (l : Module.Library) (d : Disk) (specPath out : Path) (options : Options) : Generation :=
  match Spec.ofFile d specPath with
  | .error e => ⟨l, d, [], .error (.file e)⟩
  | .ok spec =>
    let c := compile l spec options
    match c.result with
    | .error e => ⟨c.library, d, c.records, .error (.compile e)⟩
    | .ok project =>
      let w := write d out project
      ⟨c.library, w.disk, c.records ++ w.records,
        (w.result.map fun _ => project).mapError .storage⟩

end Project
end Groundplan
