import Groundplan.Command.Option

/-!
What a command line asks for.
-/

namespace Groundplan
namespace Command

/-- What holds for every command. -/
structure Flags where
  /-- Everything is logged and failures are detailed. -/
  verbose : Bool := false
  /-- Results and failures are written as JSON. -/
  json : Bool := false
  deriving DecidableEq, Inhabited

structure GenerateArguments where
  spec : Option String := none
  output : Option String := none
  strict : Bool := false
  credentials : Option String := none
  deriving DecidableEq, Inhabited

structure PreviewArguments where
  spec : Option String := none
  /-- The only file to show. -/
  file : Option String := none
  strict : Bool := false
  credentials : Option String := none
  deriving DecidableEq, Inhabited

structure DeployArguments where
  directory : Option String := none
  autoApprove : Bool := false
  destroy : Bool := false
  workspace : Option String := none
  deriving DecidableEq, Inhabited

inductive Task
  | generate (arguments : GenerateArguments)
  | preview (arguments : PreviewArguments)
  | deploy (arguments : DeployArguments)
  deriving DecidableEq

inductive Invocation
  /-- No argument at all. -/
  | nothing
  | help
  | version
  | perform (flags : Flags) (task : Task)
  deriving DecidableEq

/-- Requests that are answered before anything else is looked at, the first one first. -/
inductive Early
  | help
  | version
  deriving DecidableEq, Inhabited

/-- Options together with the early requests among them. -/
structure Asked (α : Type) where
  options : α
  early : List Early := []

def flag {α : Type} (spellings : List String) (set : α → α) : Switch (Asked α) :=
  ⟨spellings, .flag fun a => { a with options := set a.options }⟩

def value {α : Type} (spellings : List String) (set : String → α → α) : Switch (Asked α) :=
  ⟨spellings, .value fun v a => { a with options := set v a.options }⟩

def early {α : Type} (spellings : List String) (request : Early) : Switch (Asked α) :=
  ⟨spellings, .flag fun a => { a with early := a.early ++ [request] }⟩

def globalSwitches : List (Switch (Asked Flags)) :=
  [early ["--version", "-V"] .version,
    flag ["--verbose", "-v"] fun f => { f with verbose := true },
    flag ["--json"] fun f => { f with json := true },
    early ["--help"] .help]

def generateSwitches : List (Switch (Asked GenerateArguments)) :=
  [value ["--output", "-o"] fun v a => { a with output := some v },
    flag ["--strict"] fun a => { a with strict := true },
    flag ["--no-strict"] fun a => { a with strict := false },
    value ["--db-credentials"] fun v a => { a with credentials := some v },
    early ["--help"] .help]

def previewSwitches : List (Switch (Asked PreviewArguments)) :=
  [value ["--file", "-f"] fun v a => { a with file := some v },
    flag ["--strict"] fun a => { a with strict := true },
    flag ["--no-strict"] fun a => { a with strict := false },
    value ["--db-credentials"] fun v a => { a with credentials := some v },
    early ["--help"] .help]

def deploySwitches : List (Switch (Asked DeployArguments)) :=
  [value ["--dir", "-d"] fun v a => { a with directory := some v },
    flag ["--auto-approve"] fun a => { a with autoApprove := true },
    flag ["--destroy"] fun a => { a with destroy := true },
    value ["--workspace", "-w"] fun v a => { a with workspace := some v },
    early ["--help"] .help]

def Early.invocation : Early → Invocation
  | .help => .help
  | .version => .version

/-- Reads the options of one command.  At most `limit` other arguments may be left. -/
def readTask {α : Type} (switches : List (Switch (Asked α))) (start : α) (limit : Nat)
    (task : α → List String → Task) (flags : Flags) (arguments : List String) :
    Except UsageFault Invocation := do
  let (asked, rest) ← readArguments switches true ⟨start, []⟩ none arguments
  match asked.early with
  | request :: _ => return request.invocation
  | [] =>
    if limit < rest.length then throw (.extraArguments (rest.drop limit))
    return .perform flags (task asked.options rest)

def readCommand (flags : Flags) (name : String) (arguments : List String) :
    Except UsageFault Invocation :=
  match name with
  | "generate" =>
    readTask generateSwitches {} 1 (fun a rest => .generate { a with spec := rest.head? }) flags arguments
  | "preview" =>
    readTask previewSwitches {} 1 (fun a rest => .preview { a with spec := rest.head? }) flags arguments
  | "deploy" => readTask deploySwitches {} 0 (fun a _ => .deploy a) flags arguments
  | _ => .error (.unknownCommand name)

/-- Reads a whole command line. -/
def Invocation.read (arguments : List String) : Except UsageFault Invocation :=
  if arguments.isEmpty then .ok .nothing
  else do
    let (asked, rest) ← readArguments globalSwitches false ⟨{}, []⟩ none arguments
    match asked.early, rest with
    | request :: _, _ => return request.invocation
    | [], [] => throw .noCommand
    | [], name :: arguments => readCommand asked.options name arguments

end Command
end Groundplan
