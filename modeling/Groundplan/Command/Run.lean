import Groundplan.Command.Fault
import Groundplan.Command.Invocation
import Groundplan.Command.Reply
import Groundplan.Command.Screen
import Groundplan.Json.Writer
import Groundplan.Rollout.Lifecycle

/-!
Running a command line.  A command works on a disk and leaves an exit code, what it
showed on its two streams, and the disk as it is afterwards.
-/

namespace Groundplan
namespace Command

open Storage Rollout

/-- The machine that a command runs on. -/
structure Host (S : Type) where
  disk : Disk
  environment : Environment
  library : Module.Library := .builtIn
  /-- The lines of standard input. -/
  input : List String := []
  isInstalled : String → Bool
  respond : Rollout.Command → S → Response × S
  now : S → Binary64 × S
  pass : Binary64 → S → S
  outside : S
  /-- The halves of surrogate pairs in a text, in order.  A text does not show which of its
  replacement characters stand for halves. -/
  halves : String → List Text.Half := fun _ => []

structure Outcome where
  exit : Int
  out : List Shown := []
  err : List Shown := []
  disk : Disk
  /-- What a rollout did. -/
  trace : List (Effect Binary64) := []

/-! ## Failing -/

/-- The end of a command that failed.  What it showed before is kept. -/
def fail (flags : Flags) (disk : Disk) (records : List LogRecord) (fault : Fault) : Outcome :=
  let message := fault.message
  let details := if flags.verbose then [Shown.details message] else []
  let logged := Shown.records flags.verbose records
  if flags.json then
    { exit := 1, disk, out := [.text (Json.oneMember "error" message ++ "\n")], err := logged ++ details }
  else { exit := 1, disk, err := logged ++ Shown.labelled "Error: " message :: details }

/-! ## Generating -/

/-- The project as JSON. -/
def reportTree (p : Project) (output : Path) : Json.Tree :=
  let texts (xs : List String) : Json.Tree := .list (xs.map .text)
  .object
    [("project", .text p.name),
      ("output_dir", .text output.toText),
      ("files", texts (p.files.map Prod.fst)),
      ("workloads", .object (p.workloads.map fun (name, type) => (name, .text type))),
      ("missing", .list (p.report.missing.map fun (workload, field) =>
        .object [("workload", .text workload), ("field", .text field)])),
      ("ignored", .object (p.report.ignored.map fun (workload, fields) => (workload, texts fields))),
      ("warnings", texts p.report.warnings)]

/-- What is shown of a project that has been written. -/
def reportLines (p : Project) (output : Path) : List Shown :=
  (if p.workloads.isEmpty then
    [.line ("Project " ++ Markup.shown p.name ++
      " declares no workloads; only networking is generated.")]
  else p.workloads.map fun (name, type) => .row [name, type, "./modules/" ++ type]) ++
  p.report.missing.map (fun (workload, field) => Shown.line
    ("Warning: " ++ workload ++ ": required field '" ++ field ++
      "' missing, rendered as \"undefined\"")) ++
  p.report.ignored.map (fun (workload, fields) => Shown.line
    (workload ++ ": not applied by its module: " ++ ", ".intercalate fields)) ++
  p.report.warnings.map (Shown.labelled "Warning: ") ++
  [.line s!"Wrote {p.files.length} files to {output.toText}",
    .line "Next: review the files, then run scoreform deploy"]

def tableTitle (p : Project) : String := "SCORE project: " ++ p.name

/-- A title of an overview, and what is said while generating, are read as markup. -/
def checkMarkup (s : String) : Except Fault Unit :=
  match Markup.fault? s with
  | some fault => .error (.markup fault)
  | none => .ok ()

def ofGenerateFault : Project.GenerateFault → Fault
  | .file fault => .file fault
  | .compile fault => .compile fault
  | .storage failure => .storage failure

/-- The paths and options of a generation. -/
def generatePlan (d : Disk) (environment : Environment) (a : GenerateArguments) :
    Except Fault (Path × Path × Project.Options) := do
  let credentials ← (Settings.credentialsMode d environment a.credentials).mapError .settings
  let spec ← (Settings.specPath d environment a.spec).mapError .settings
  let output ← (Settings.terraformPath d environment a.output).mapError .settings
  checkMarkup ("Generating Terraform from " ++ spec.toText ++ "...")
  return (spec, output, { strict := a.strict, credentials })

/-- Where writing the project of a specification ends early, and what compiling it said. -/
def stopOf? {S : Type} (host : Host S) (path : Path) (options : Project.Options) :
    Option (List LogRecord × Project.Stop) :=
  match Spec.ofFile host.disk path with
  | .error _ => none
  | .ok spec =>
    let c := Project.compile host.library spec options
    match c.result with
    | .error _ => none
    | .ok p => (Project.stop? host.halves p.files).map fun s => (c.records, s)

def writeFault (w : Project.Writing (List Path)) (fault : Text.Unencodable) : Fault :=
  match w.result with
  | .error failure => .storage failure
  | .ok _ => .encoding fault

def generate {S : Type} (host : Host S) (flags : Flags) (a : GenerateArguments) : Outcome :=
  match generatePlan host.disk host.environment a with
  | .error fault => fail flags host.disk [] fault
  | .ok (spec, output, options) =>
    match stopOf? host spec options with
    | some (records, stop) =>
      let w := Project.writeUpTo host.disk output stop
      fail flags w.disk (records ++ w.records) (writeFault w stop.fault)
    | none =>
      let g := Project.generate host.library host.disk spec output options
      match g.result with
      | .error fault => fail flags g.disk g.records (ofGenerateFault fault)
      | .ok p =>
        let err := Shown.records flags.verbose g.records
        if flags.json then
          { exit := 0, disk := g.disk, err, out := [.text ((reportTree p output).toText ++ "\n")] }
        else
          match if p.workloads.isEmpty then .ok () else checkMarkup (tableTitle p) with
          | .error fault => fail flags g.disk g.records fault
          | .ok () => { exit := 0, disk := g.disk, err, out := reportLines p output }

/-! ## Previewing -/

/-- The files to show: all, or the one that is asked for. -/
def chosenFiles (p : Project) (file : Option String) : Except Fault (List (String × String)) :=
  match file with
  | none => .ok p.files
  | some name =>
    match p.files.lookup name with
    | some content => .ok [(name, content)]
    | none => .error (.noFile name (p.files.map Prod.fst))

def filesTree (files : List (String × String)) : Json.Tree :=
  .object (files.map fun (path, content) => (path, .text content))

def fileLines (files : List (String × String)) : List Shown :=
  files.flatMap fun (path, content) => [.heading path, .line content]

/-- The specification and the options of a preview. -/
def previewPlan (d : Disk) (environment : Environment) (a : PreviewArguments) :
    Except Fault (Spec × Project.Options) := do
  let credentials ← (Settings.credentialsMode d environment a.credentials).mapError .settings
  let path ← (Settings.specPath d environment a.spec).mapError .settings
  let spec ← (Spec.ofFile d path).mapError .file
  return (spec, { strict := a.strict, credentials })

/-- Shows files up to the end, or up to a text that the console cannot show. -/
def showFiles {S : Type} (host : Host S) (flags : Flags) (records : List LogRecord)
    (files : List (String × String)) : Outcome :=
  match Project.stop? host.halves files with
  | none =>
    { exit := 0, disk := host.disk, err := Shown.records flags.verbose records
      out := fileLines files }
  | some stop =>
    let o := fail flags host.disk records (.printing stop.fault)
    { o with out := fileLines stop.done ++ .heading stop.failing.1 :: o.out }

/-- As JSON every text can be shown, since no character beyond ASCII is used. -/
def preview {S : Type} (host : Host S) (flags : Flags) (a : PreviewArguments) : Outcome :=
  match previewPlan host.disk host.environment a with
  | .error fault => fail flags host.disk [] fault
  | .ok (spec, options) =>
    let c := Project.compile host.library spec options
    match (c.result.mapError Fault.compile).bind fun p => chosenFiles p a.file with
    | .error fault => fail flags host.disk c.records fault
    | .ok files =>
      if flags.json then
        { exit := 0, disk := host.disk, err := Shown.records flags.verbose c.records
          out := [.text ((filesTree files).toText ++ "\n")] }
      else showFiles host flags c.records files

/-! ## Rolling out -/

def seconds : Quantity → Binary64
  | .whole n => Binary64.ofInt n
  | .real x => x

/-- Questions are answered by the lines of the input. -/
def surroundings {S : Type} (host : Host S) : Surroundings Binary64 (S × List String) where
  respond command := fun (s, input) =>
    let (response, s) := host.respond command s
    (response, (s, input))
  reply _ := fun (s, input) =>
    let (reply, input) := readReply input
    (reply, (s, input))
  now := fun (s, input) =>
    let (time, s) := host.now s
    (time, (s, input))
  pass span := fun (s, input) => (host.pass span s, input)

def setup {S : Type} (host : Host S) (a : DeployArguments) :
    Except Settings.Fault (Setup Binary64 (S × List String)) := do
  let (_, settings) ← Settings.current host.disk host.environment
  let directory ← Settings.terraformPath host.disk host.environment a.directory
  return {
    directory
    autoApprove := a.autoApprove
    workspace := a.workspace
    outputs := Setup.defaultOutputs directory
    drainTimeout := seconds settings.drainTimeout
    pollInterval := Binary64.ofInt 10
    environment := host.environment.map Prod.fst
    isInstalled := host.isInstalled
    surroundings := surroundings host }

def deploy {S : Type} (host : Host S) (flags : Flags) (a : DeployArguments) : Outcome :=
  match setup host a with
  | .error fault => fail flags host.disk [] (.settings fault)
  | .ok s =>
    let start : Run Binary64 (S × List String) :=
      { outside := (host.outside, host.input), disk := host.disk }
    let (result, r) := (ExceptT.run (if a.destroy then s.destroy else s.deploy)).run start
    let out := r.trace.flatMap Shown.effect
    let records := r.trace.filterMap Shown.effectRecord?
    match result with
    | .ok exit =>
      { exit, out, err := Shown.records flags.verbose records, disk := r.disk, trace := r.trace }
    | .error failure =>
      let o := fail flags r.disk records (.rollout failure)
      { o with out := out ++ o.out, trace := r.trace }

/-! ## Command lines -/

def versionText : String := "scoreform 0.1.0\n"

def usageText : String :=
  "Usage: scoreform [OPTIONS] COMMAND [ARGS]...\n\n" ++
  "Compile SCORE workload specs into Terraform and deploy them\n\n" ++
  "Options: --version -V, --verbose -v, --json, --help\n" ++
  "Commands:\n" ++
  "  generate [SPEC_FILE] [--output -o PATH] [--strict] [--db-credentials MODE]\n" ++
  "  preview [SPEC_FILE] [--file -f PATH] [--strict] [--db-credentials MODE]\n" ++
  "  deploy [--dir -d PATH] [--auto-approve] [--destroy] [--workspace -w NAME]\n"

/-- An argument that names a path.  An empty one names the current directory. -/
def pathArgument (a : String) : String := (Path.parse a).toText

def perform {S : Type} (host : Host S) (flags : Flags) : Task → Outcome
  | .generate a =>
    generate host flags { a with spec := a.spec.map pathArgument, output := a.output.map pathArgument }
  | .preview a => preview host flags { a with spec := a.spec.map pathArgument }
  | .deploy a => deploy host flags { a with directory := a.directory.map pathArgument }

/-- Runs a command line. -/
def run {S : Type} (host : Host S) (arguments : List String) : Outcome :=
  match Invocation.read arguments with
  | .error fault =>
    { exit := 2, disk := host.disk, err := [.text (usageText ++ "\nError: " ++ fault.message ++ "\n")] }
  | .ok .nothing => { exit := 2, disk := host.disk, out := [.text usageText] }
  | .ok .help => { exit := 0, disk := host.disk, out := [.text usageText] }
  | .ok .version => { exit := 0, disk := host.disk, out := [.text versionText] }
  | .ok (.perform flags task) => perform host flags task

end Command
end Groundplan
