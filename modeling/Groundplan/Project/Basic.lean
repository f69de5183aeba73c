import Groundplan.Hcl.Render
import Groundplan.Module.Library
import Groundplan.Network.Subnets

/-!
Compiled projects: the files of the root module and of one child module for each
workload type, with a report on what the specification left open.
-/

namespace Groundplan
namespace Project

structure RootFiles where
  provider : String
  inputs : String
  main : String
  deriving DecidableEq, Inhabited

/-- The files of the child module for one workload type. -/
structure ModuleFiles where
  typeName : String
  /-- The type of the template that made them. -/
  template : String
  inputs : String
  main : String
  outputs : String
  deriving DecidableEq, Inhabited

structure Report where
  /-- Required fields that are absent, with their workloads. -/
  missing : List (String × String) := []
  /-- Fields that no module applies, by workload. -/
  ignored : List (String × List String) := []
  warnings : List String := []
  deriving DecidableEq, Inhabited

end Project

structure Project where
  name : String
  root : Project.RootFiles
  modules : List Project.ModuleFiles
  /-- The type of each workload. -/
  workloads : List (String × String)
  report : Project.Report
  deriving DecidableEq, Inhabited

namespace Project

def RootFiles.files (r : RootFiles) : List (String × String) :=
  [("provider.tf", r.provider), ("variables.tf", r.inputs), ("main.tf", r.main)]

def ModuleFiles.path (m : ModuleFiles) : String := "modules/" ++ m.typeName

def ModuleFiles.files (m : ModuleFiles) : List (String × String) :=
  [(m.path ++ "/variables.tf", m.inputs), (m.path ++ "/main.tf", m.main),
    (m.path ++ "/outputs.tf", m.outputs)]

/-- Every file with its path, those of the root module first. -/
def files (p : Project) : List (String × String) :=
  p.root.files ++ p.modules.flatMap ModuleFiles.files

/-- Why a specification does not compile. -/
inductive Fault
  | provider (name : String)
  | reservedWorkload
  | network (project : String) (fault : Network.LayoutFault)
  | lookup (project : String) (fault : Module.LookupFault)
  | missing (fields : List (String × String))
  | render (project : String) (fault : Hcl.RenderFault)
  deriving DecidableEq

namespace Fault

/-- What is said of a fault that compiling did not foresee. -/
def unforeseen (project reason : String) : String :=
  "Failed to compile " ++ Text.quoted project ++ ": " ++ reason

def message : Fault → String
  | .provider name => "metadata.provider " ++ Text.quoted name ++ " is not a valid provider name"
  | .reservedWorkload => "Workload name 'vpc' clashes with the shared networking module"
  | .network project (.block fault) => unforeseen project fault.message
  | .network _ fault => fault.message
  | .lookup project fault => unforeseen project fault.message
  | .missing fields =>
    "Missing required workload fields: " ++
      ", ".intercalate (fields.map fun (workload, field) => workload ++ "." ++ field)
  | .render project fault => unforeseen project fault.message

end Fault
end Project
end Groundplan
