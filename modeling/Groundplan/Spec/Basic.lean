import Groundplan.Datum

/-!
Workload specifications.  A specification names workloads and says what each needs; an
absent field is left absent here, and whoever uses it owns its default.  Keys that the
format does not know are kept as extras.
-/

namespace Groundplan

/-- An amount that may have a fraction. -/
inductive Quantity
  | whole (n : Int)
  | real (x : Binary64)
  deriving DecidableEq, Inhabited

structure Metadata where
  name : String := "score-app"
  environment : String := "dev"
  provider : String := "aws"
  region : String := "us-west-2"
  tags : Entries := []
  extras : Entries := []
  deriving Inhabited

structure Port where
  port : Option Int := none
  protocol : Option String := none
  extras : Entries := []
  deriving Inhabited

/-- The size of a workload. -/
structure WorkloadResources where
  cpu : Option Quantity := none
  memory : Option Quantity := none
  instanceType : Option String := none
  storage : Option Int := none
  extras : Entries := []
  deriving Inhabited

structure Backup where
  retention : Option Int := none
  extras : Entries := []
  deriving Inhabited

structure Workload where
  type : String := "container"
  image : Option String := none
  runtime : Option String := none
  handler : Option String := none
  engine : Option String := none
  version : Option String := none
  resources : WorkloadResources := {}
  ports : List Port := []
  replicas : Option Int := none
  environment : Entries := []
  backup : Option Backup := none
  healthCheck : Option Entries := none
  scaling : Option Entries := none
  volumes : List Entries := []
  dependsOn : List String := []
  sideCar : Option Bool := none
  labels : Entries := []
  extras : Entries := []
  deriving Inhabited

structure Networking where
  type : Option String := none
  cidr : Option String := none
  subnets : Entries := []
  extras : Entries := []
  deriving Inhabited

/-- What the workloads share. -/
structure SharedResources where
  networking : Option Networking := none
  extras : Entries := []
  deriving Inhabited

structure Spec where
  apiVersion : Option String := none
  metadata : Metadata := {}
  workloads : List (String × Workload) := []
  resources : SharedResources := {}
  extras : Entries := []
  deriving Inhabited

namespace Workload

/-- The port that traffic goes to. -/
def firstPort (w : Workload) : Option Int := w.ports.head?.bind Port.port

/-- The fields that are present although no module applies them. -/
def unconsumedFields (w : Workload) : List String :=
  (if w.healthCheck.any (!·.isEmpty) then ["healthCheck"] else []) ++
  (if w.scaling.any (!·.isEmpty) then ["scaling"] else []) ++
  (if !w.volumes.isEmpty then ["volumes"] else []) ++
  (if !w.dependsOn.isEmpty then ["dependsOn"] else []) ++
  (if w.sideCar.isSome then ["sideCar"] else [])

end Workload

namespace Spec

/-- The address range of the network, if the specification gives one. -/
def networkingCidr (s : Spec) : Option String := s.resources.networking.bind Networking.cidr

/-- The types of the workloads in order of first use. -/
def workloadTypes (s : Spec) : List String :=
  (s.workloads.map fun w => w.2.type).foldl
    (fun seen t => if seen.contains t then seen else seen ++ [t]) []

end Spec
end Groundplan
