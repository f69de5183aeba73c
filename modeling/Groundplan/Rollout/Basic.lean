import Groundplan.Log
import Groundplan.Number.Shortest
import Groundplan.Rollout.Service
import Groundplan.Storage.Disk

/-!
Rollouts: provisioning and destroying what a generated directory describes, by running
the provisioning tool and the cloud's command line one command after the other.

A rollout depends on what its commands answer, on consent and on time.  These are given
as surroundings with a state of their own, and everything that a rollout does to the
outside is kept in order as its trace.
-/

namespace Groundplan
namespace Rollout

open Storage

/-- A tool with its arguments. -/
abbrev Command := List String

def Command.toText (c : Command) : String := " ".intercalate c

/-- Who gets the output of a command: the screen, the rollout, or both. -/
inductive Mode
  | stream
  | capture
  | tee
  deriving DecidableEq, Inhabited

/-- How a command ends, if its tool is there. -/
inductive Response
  | missing
  | exited (code : Int) (out err : String)
  deriving DecidableEq, Inhabited

/-- The part of a response that a rollout sees. -/
structure Output where
  command : Command
  code : Int
  out : String := ""
  err : String := ""
  deriving DecidableEq, Inhabited

def Output.succeeded (o : Output) : Bool := o.code == 0

/-- An answer to a question: the lines that were given up to the one that decides, and
the decision.  There is none if the lines end before. -/
structure Reply where
  typed : List String := []
  decision : Option Bool
  deriving DecidableEq, Inhabited

/-- What a message to the user is for. -/
inductive Notice
  | section
  | info
  | success
  | warning
  | error
  deriving DecidableEq, Inhabited

/-- What is logged in place of a message if there is no screen. -/
def Notice.toRecord (text : String) : Notice → LogRecord
  | .section => .info s!"=== {text} ==="
  | .info => .info text
  | .success => .info text
  | .warning => .warning text
  | .error => .error text

/-- What a rollout does to the outside. -/
inductive Effect (T : Type)
  /-- A command is run in a directory. -/
  | run (mode : Mode) (directory : Path) (command : Command)
  /-- A line that a command printed is shown. -/
  | echo (line : String)
  | notice (kind : Notice) (text : String)
  | ask (question : String) (reply : Reply)
  | sleep (span : T)
  | record (r : LogRecord)
  deriving DecidableEq, Inhabited

/-- Clock readings and spans of time. -/
class Timescale (T : Type) where
  /-- The reading a span after another. -/
  later : T → T → T
  /-- Whether a deadline is met by a reading. -/
  reached : T → T → Bool
  /-- A span in whole seconds. -/
  secondsText : T → String

instance : Timescale Binary64 where
  later := Binary64.add
  reached deadline now := Binary64.le deadline now
  secondsText := Binary64.toWholeText

/-- Everything outside that answers a rollout.  It may change with every use. -/
structure Surroundings (T S : Type) where
  respond : Command → S → Response × S
  reply : String → S → Reply × S
  now : S → T × S
  pass : T → S → S

/-- What is fixed during a rollout. -/
structure Setup (T S : Type) where
  directory : Path
  /-- Nothing is asked. -/
  autoApprove : Bool := false
  workspace : Option String := none
  /-- The file that the results are saved in. -/
  outputs : Path
  drainTimeout : T
  pollInterval : T
  /-- The names of the variables that are set. -/
  environment : List String := []
  isInstalled : String → Bool
  surroundings : Surroundings T S
  /-- A bound on the questions about one service, so that every rollout ends.  It is met
  only if the clock does not go on. -/
  maxPolls : Nat := 1000000

/-- Why a rollout is given up. -/
inductive Failure
  | noDirectory (path : Path)
  | noTool (tool : String) (hint : Option String)
  | exited (command : Command) (code : Int)
  | storage (failure : Storage.Failure)
  | answer (fault : AnswerFault)
  /-- A question was not answered. -/
  | unanswered
  | endless
  deriving DecidableEq

def Failure.message : Failure → String
  | .noDirectory path =>
    s!"Terraform directory not found: {path.toText}. Run 'scoreform generate' first."
  | .noTool tool hint =>
    tool ++ " is not installed or not on PATH" ++ (hint.map (". " ++ ·)).getD ""
  | .exited command code => command.toText ++ s!" exited with code {code}"
  | .storage failure => failure.message
  | .answer fault => fault.message
  | .unanswered => ""
  | .endless => "the clock stands still"

/-- The state of a rollout.  `trace` holds the effects so far, the first one first. -/
structure Run (T S : Type) where
  outside : S
  disk : Disk
  trace : List (Effect T) := []

/-- A part of a rollout.  What it did before it failed is kept. -/
abbrev Action (T S α : Type) := ExceptT Failure (StateM (Run T S)) α

variable {T S : Type}

def effect (e : Effect T) : Action T S Unit :=
  modify fun r => { r with trace := r.trace ++ [e] }

/-- Lets the surroundings answer. -/
def consult {α : Type} (f : S → α × S) : Action T S α :=
  modifyGet fun r => let (a, s) := f r.outside; (a, { r with outside := s })

def notice (kind : Notice) (text : String) : Action T S Unit := effect (.notice kind text)

def title (text : String) : Action T S Unit := notice .section text

def info (text : String) : Action T S Unit := notice .info text

def warn (text : String) : Action T S Unit := notice .warning text

def log (r : LogRecord) : Action T S Unit := effect (.record r)

/-- Runs a step of the disk. -/
def onDisk (path : Path) (f : Disk → Except Storage.Fault Disk) : Action T S Unit := do
  match f (← get).disk with
  | .ok d => modify fun r => { r with disk := d }
  | .error e => throw (.storage ⟨e, path⟩)

def ofAnswer {α : Type} : Except AnswerFault α → Action T S α
  | .ok a => pure a
  | .error e => throw (.answer e)

namespace Setup

variable (s : Setup T S)

/-- Runs a command in the generated directory. -/
def run (mode : Mode) (command : Command) : Action T S Output := do
  log (.debug ("Running " ++ command.toText ++ " in " ++ s.directory.toText))
  effect (.run mode s.directory command)
  match ← consult (s.surroundings.respond command) with
  | .missing => throw (.noTool (command.headD "") none)
  | .exited code out err =>
    match mode with
    | .stream => return { command, code }
    | .capture => return { command, code, out, err }
    | .tee =>
      let merged := out ++ err
      for line in Text.splitKeepingNewlines merged.toList do
        effect (.echo (String.ofList line))
      return { command, code, out := merged }

def terraform (mode : Mode) (args : List String) : Action T S Output :=
  s.run mode ("terraform" :: args)

def aws (args : List String) : Action T S Output :=
  s.run .capture ("aws" :: args ++ ["--output", "json"])

/-- Gives up unless a command has succeeded. -/
def check (o : Output) : Action T S Output :=
  if o.succeeded then pure o else throw (.exited o.command o.code)

/-- Runs a command that must succeed. -/
def require (mode : Mode) (args : List String) : Action T S Output := do
  check (← s.terraform mode args)

/-- Asks a question. -/
def confirm (question : String) : Action T S Bool := do
  let reply ← consult (s.surroundings.reply question)
  effect (.ask question reply)
  match reply.decision with
  | some b => return b
  | none => throw .unanswered

def now : Action T S T := consult s.surroundings.now

def wait (span : T) : Action T S Unit := do
  effect (.sleep span)
  consult fun o => ((), s.surroundings.pass span o)

end Setup
end Rollout
end Groundplan
