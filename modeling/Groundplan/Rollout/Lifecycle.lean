import Groundplan.Rollout.Drain
import Groundplan.Rollout.Placeholder

/-!
The two kinds of rollout.  Provisioning plans, asks and applies; destroying drains
services first, plans the destruction, asks and applies that.  Nothing is tried again: a
command that fails ends the rollout with its exit code.
-/

namespace Groundplan
namespace Rollout
namespace Setup

variable {T S : Type} (s : Setup T S)

def planFile : String := "tfplan"

def destroyPlanFile : String := "destroy.tfplan"

/-- Where the provisioning tool keeps the state of a deployment. -/
def stateFiles : List String :=
  [".terraform", "terraform.tfstate", "terraform.tfstate.backup", ".terraform.lock.hcl"]

/-- The file for the results if none is given, beside the generated directory. -/
def defaultOutputs (directory : Storage.Path) : Storage.Path :=
  directory.parent.child "terraform_outputs.json"

/-- What has to hold before any command is run. -/
def checkPreconditions : Action T S Unit := do
  if !(← get).disk.isDirectory s.directory then throw (.noDirectory s.directory)
  if !s.isInstalled "terraform" then
    throw (.noTool "terraform" (some "Please install Terraform and try again."))

def reportAll : List Reference → Action T S Unit
  | [] => pure ()
  | r :: rest => do
    info ("  - $\x7b" ++ r.text ++ "\x7d (" ++ r.status ++ ")")
    reportAll rest

/-- Tells which placeholders the generated files hold. -/
def reportReferences : Action T S (List Reference) := do
  match references s.environment (← get).disk s.directory with
  | .error e => throw (.storage e)
  | .ok refs =>
    if !refs.isEmpty then
      info "The following SCORE placeholders were copied literally and may need values:"
      reportAll refs
    return refs

/-- Selects the workspace, which is made if it does not exist. -/
def selectWorkspace : Action T S Unit := do
  match s.workspace with
  | none => pure ()
  | some name =>
    if name.isEmpty then return
    info s!"Selecting workspace: {name}"
    let selected ← s.terraform .capture ["workspace", "select", name]
    if !selected.succeeded then
      let _ ← s.require .stream ["workspace", "new", name]

/-- The common start of both kinds of rollout.  Gives the name of the workspace. -/
def prepare : Action T S String := do
  title "Terraform Deployment Process"
  info "Starting deployment from SCORE-generated Terraform configuration"
  title "Initializing Terraform"
  let _ ← s.require .stream ["init", "-upgrade"]
  s.selectWorkspace
  let shown ← s.require .capture ["workspace", "show"]
  let current := Text.strip shown.out
  info s!"Current workspace: {current}"
  title "Validating Terraform Configuration"
  let _ ← s.require .stream ["validate"]
  let _ ← s.reportReferences
  return current

/-- Takes the failure of a command for the end of the rollout: the problem is told, and
the exit code of the command is the result. -/
def orExitCode {α : Type} (problem : String) (action : Action T S α) :
    Action T S (Except Int α) :=
  tryCatch (Except.ok <$> action) fun e =>
    match e with
    | .exited _ code => do
      notice .error (problem ++ ": " ++ e.message)
      return .error code
    | e => throw e

/-! ## Provisioning -/

/-- Applies the plan.  Gives `false` if that is declined. -/
def apply : Action T S Bool := do
  title "Applying Configuration"
  if s.autoApprove then
    let _ ← s.require .stream ["apply", "-auto-approve", planFile]
  else
    if !(← s.confirm "Do you want to perform these actions?") then
      info "Deployment cancelled"
      return false
    let _ ← s.require .stream ["apply", planFile]
  notice .success "Terraform deployment completed successfully!"
  return true

/-- Shows the results and saves them. -/
def saveOutputs : Action T S Unit := do
  title "Deployment Outputs"
  let _ ← s.require .stream ["output"]
  let results ← s.require .capture ["output", "-json"]
  onDisk s.outputs fun d => d.writeText s.outputs results.out
  info s!"Outputs saved to {s.outputs.toText}"

/-- Everything up to the results.  Gives `false` if the plan is declined. -/
def provision : Action T S Bool := do
  let _ ← s.prepare
  title "Creating Terraform Plan"
  let _ ← s.require .stream ["plan", s!"-out={planFile}"]
  if ← s.apply then
    s.saveOutputs
    return true
  else return false

/-- Provisions what the generated directory describes.  Gives the exit code. -/
def deploy : Action T S Int := do
  s.checkPreconditions
  match ← orExitCode "Terraform deployment failed" s.provision with
  | .error code => return code
  | .ok false => return 0
  | .ok true =>
    title "Next Steps"
    info "1. Review the outputs above for access information to your resources"
    info "2. To update your deployment, modify your SCORE file and re-run 'scoreform generate'"
    info "3. To destroy this infrastructure, run: scoreform deploy --destroy"
    return 0

/-! ## Destroying -/

/-- Everything up to the plan of destruction.  Gives the name of the workspace. -/
def planDestruction [Timescale T] : Action T S String := do
  let current ← s.prepare
  title "Destroying Infrastructure"
  s.drain
  info "Creating destroy plan..."
  let _ ← s.require .stream ["plan", "-destroy", s!"-out={destroyPlanFile}"]
  return current

/-- The resources that the plan of destruction names. -/
def plannedDeletions : Action T S (List String) := do
  let o ← s.terraform .capture ["show", "-no-color", destroyPlanFile]
  return if o.succeeded then plannedChanges o.out else []

def infoAll : List String → Action T S Unit
  | [] => pure ()
  | line :: rest => do info line; infoAll rest

/-- Whether the destruction may go on. -/
def approveDestruction (current : String) : Action T S Bool :=
  if s.autoApprove then pure true
  else do
    warn s!"This will destroy all resources in workspace: {current}"
    let deletions ← s.plannedDeletions
    if !deletions.isEmpty then
      warn "The following resources will be destroyed:"
      infoAll (deletions.map ("  - " ++ ·))
    s.confirm "Are you sure you want to continue with destruction?"

/-- Removes files of the generated directory that are there. -/
def removeFiles : List String → Action T S Unit
  | [] => pure ()
  | name :: rest => do
    let path := s.directory.child name
    onDisk path fun d => d.removeIfPresent path
    removeFiles rest

/-- Removes files and directories of the generated directory that are there. -/
def removeAll : List String → Action T S Unit
  | [] => pure ()
  | name :: rest => do
    let path := s.directory.child name
    onDisk path fun d => if d.isDirectory path then d.removeTree path else d.removeIfPresent path
    removeAll rest

/-- Removes the state of the deployment. -/
def removeState : Action T S Unit := s.removeAll stateFiles

/-- Applies the plan of destruction and cleans up. -/
def applyDestruction : Action T S Int := do
  info "Executing destroy plan..."
  let flags := if s.autoApprove then ["-auto-approve"] else []
  let result ← s.terraform .tee (["apply"] ++ flags ++ [destroyPlanFile])
  if result.succeeded then
    notice .success "Infrastructure successfully destroyed"
    s.removeFiles [destroyPlanFile, planFile]
    if !s.autoApprove then
      if ← s.confirm "Do you want to remove Terraform state files as well?" then
        s.removeState
        info "Terraform state files removed"
    return 0
  else
    notice .error s!"Failed to destroy infrastructure (exit code: {result.code})"
    infoAll (hints result.out)
    return result.code

/-- Destroys what has been provisioned from the generated directory.  Gives the exit
code. -/
def destroy [Timescale T] : Action T S Int := do
  s.checkPreconditions
  match ← orExitCode "Could not prepare destroy plan" s.planDestruction with
  | .error code => return code
  | .ok current =>
    if ← s.approveDestruction current then s.applyDestruction
    else
      info "Destruction cancelled"
      return 0

end Setup
end Rollout
end Groundplan
