import Groundplan.Rollout.Basic
import Groundplan.Rollout.Printout

/-!
Draining services.  A cluster can only be destroyed when it runs nothing, so every
service is scaled down, waited for and, with consent, deleted.  A service that does not
come to rest in time is no reason to stop.
-/

namespace Groundplan
namespace Rollout
namespace Setup

variable {T S : Type} (s : Setup T S)

/-- Whether an answer about a service says that it runs nothing. -/
def isDrained (o : Output) : Action T S Bool :=
  if o.succeeded then do return (← ofAnswer (runningCount o.out)) == some 0 else pure false

/-- Asks about a service until it runs nothing or the deadline is met. -/
def poll [Timescale T] (cluster service : String) (deadline : T) : Nat → Action T S Bool
  | 0 => throw .endless
  | n + 1 => do
    let answer ← s.aws ["ecs", "describe-services", "--cluster", cluster, "--services", service]
    if ← isDrained answer then return true
    if Timescale.reached deadline (← s.now) then return false
    s.wait s.pollInterval
    poll cluster service deadline n

/-- Whether a service comes to rest within the time that is allowed. -/
def waitForDrain [Timescale T] (cluster service : String) : Action T S Bool := do
  let start ← s.now
  s.poll cluster service (Timescale.later start s.drainTimeout) s.maxPolls

/-- The name of the cluster at an address of the state. -/
def clusterName (address : String) : Action T S (Option String) := do
  let o ← s.terraform .capture ["state", "show", "-no-color", address]
  return if o.succeeded then resourceName o.out else none

/-- The identifiers of the services of a cluster. -/
def listServices (cluster : String) : Action T S (List Datum) := do
  let o ← s.aws ["ecs", "list-services", "--cluster", cluster]
  if o.succeeded then
    match ← ofAnswer (serviceIds o.out) with
    | some ids => return ids
    | none =>
      log (.debug s!"Unexpected list-services output for {cluster}")
      return []
  else
    log (.debug s!"list-services failed for {cluster}: {Text.strip o.err}")
    return []

def warnOnFailure (o : Output) : Action T S Unit :=
  if o.succeeded then pure ()
  else warn (o.command.toText ++ " failed: " ++ Text.strip o.err)

/-- Whether a service may be deleted. -/
def mayDelete (service : String) : Action T S Bool :=
  if s.autoApprove then do
    info s!"Auto-deleting service: {service}"
    return true
  else do
    if ← s.confirm s!"Attempt to delete service {service} manually?" then
      info s!"Deleting service: {service}"
      return true
    else return false

def drainService [Timescale T] (cluster service : String) : Action T S Unit := do
  info s!"Scaling down service: {service}"
  warnOnFailure (← s.aws
    ["ecs", "update-service", "--cluster", cluster, "--service", service, "--desired-count", "0"])
  info "Waiting for service tasks to terminate..."
  if !(← s.waitForDrain cluster service) then
    warn (s!"Service {service} still has running tasks after " ++
      s!"{Timescale.secondsText s.drainTimeout}s; continuing")
  if ← s.mayDelete service then
    warnOnFailure (← s.aws
      ["ecs", "delete-service", "--cluster", cluster, "--service", service, "--force"])

def drainServices [Timescale T] (cluster : String) : List Datum → Action T S Unit
  | [] => pure ()
  | id :: rest => do
    let service ← ofAnswer (serviceName id)
    s.drainService cluster service
    drainServices cluster rest

def drainCluster [Timescale T] (address : String) : Action T S Unit := do
  match ← s.clusterName address with
  | none => pure ()
  | some cluster =>
    if cluster.isEmpty then return
    info s!"Found ECS cluster: {cluster}"
    let services ← s.listServices cluster
    if services.isEmpty then return
    info "Cluster has active services. Will attempt to remove them first."
    s.drainServices cluster services

def drainClusters [Timescale T] : List String → Action T S Unit
  | [] => pure ()
  | address :: rest => do
    s.drainCluster address
    drainClusters rest

/-- The addresses of the clusters in a listing of the state. -/
def clusterAddresses (listing : String) : List String :=
  ((Text.lines listing).filter (contains · "aws_ecs_cluster")).map Text.strip

/-- Drains the services of every cluster in the state. -/
def drain [Timescale T] : Action T S Unit := do
  if s.isInstalled "aws" then
    info "Checking for ECS services that might block cluster deletion..."
    let state ← s.terraform .capture ["state", "list"]
    if state.succeeded then s.drainClusters (clusterAddresses state.out)
    else log (.debug s!"terraform state list failed: {Text.strip state.err}")
  else warn "aws CLI not found; skipping ECS service cleanup before destroy"

end Setup
end Rollout
end Groundplan
