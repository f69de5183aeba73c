import Groundplan.Command.Markup
import Groundplan.Project.Encode
import Groundplan.Rollout.Basic
import Groundplan.Settings.Lookup

/-!
How a command reports that it failed.  A fault in what the user gave is told as it is;
every other fault is announced as an error.
-/

namespace Groundplan
namespace Command

inductive Fault
  | settings (fault : Settings.Fault)
  | file (fault : FileFault)
  | compile (fault : Project.Fault)
  | storage (failure : Storage.Failure)
  /-- The text of a file cannot be encoded. -/
  | encoding (fault : Text.Unencodable)
  /-- The console cannot show a text, for the same cause. -/
  | printing (fault : Text.Unencodable)
  | rollout (failure : Rollout.Failure)
  | markup (fault : Markup.Fault)
  /-- The project has no such file. -/
  | noFile (name : String) (available : List String)

def announced (s : String) : String := "Error: " ++ s

def storageMessage (f : Storage.Failure) : String :=
  match f.fault with
  | .notFound => "File not found: " ++ f.message
  | .notUtf8 _ => f.message
  | _ => announced f.message

/-- A fault in a scalar says what is wrong with the scalar, or which step of reading it
was not possible. -/
def scalarMessage (f : Yaml.Fault) : String :=
  match f with
  | .malformed _ _ _ => "Invalid YAML: " ++ f.message
  | .calendar _ => f.message
  | .integer _ _ => f.message
  | .digits _ => f.message
  | .float _ => f.message
  | .codePoint code => if Yaml.Fault.codePointLimit ≤ code then announced f.message else f.message
  | _ => announced f.message

def settingsMessage (f : Settings.Fault) : String :=
  match f with
  | .storage failure => storageMessage failure
  | .yaml fault => scalarMessage fault
  | .violations _ => "Invalid configuration: " ++ f.message
  | _ => f.message

def fileMessage (f : FileFault) : String :=
  match f with
  | .source (.scalar fault) => scalarMessage fault
  | .source .nesting => announced f.message
  | _ => f.message

def answerMessage (f : Rollout.AnswerFault) : String :=
  match f with
  | .digits _ => f.message
  | .excess _ => f.message
  | .notANumber => f.message
  | _ => announced f.message

def rolloutMessage (f : Rollout.Failure) : String :=
  match f with
  | .storage failure => storageMessage failure
  | .answer fault => answerMessage fault
  | .unanswered => announced f.message
  | .endless => announced f.message
  | _ => f.message

def Fault.message : Fault → String
  | .settings fault => settingsMessage fault
  | .file fault => fileMessage fault
  | .compile fault => fault.message
  | .storage failure => storageMessage failure
  | .encoding fault => fault.message
  | .printing fault => fault.message ++
    "\n*** You may need to add PYTHONIOENCODING=utf-8 to your environment ***"
  | .rollout failure => rolloutMessage failure
  | .markup fault => announced fault.message
  | .noFile name available =>
    "No generated file " ++ Text.quoted name ++ ". Available: " ++ ", ".intercalate available

end Command
end Groundplan
