import Groundplan.Command.Run
import Groundplan.Main
import Groundplan.Project.Write
import Groundplan.Proofs.Project.Containment
import Groundplan.Proofs.Project.Integrity
import Groundplan.Proofs.Rollout.Destruction
import Groundplan.Proofs.Rollout.Provisioning
import Groundplan.Proofs.Spec.Source
import Groundplan.Rollout.Lifecycle
import Groundplan.Settings.Lookup
import Groundplan.Proofs.Hcl.Replacement
import Groundplan.Proofs.Storage.Growth
import Groundplan.Proofs.Storage.Inner
import Groundplan.Proofs.Project.Writing
import Groundplan.Proofs.Project.Identifiers
import Groundplan.Proofs.Project.Success
import Groundplan.Proofs.Project.Locality
import Groundplan.Proofs.Rollout.Endurance
import Groundplan.Proofs.Rollout.Advice
import Groundplan.Proofs.Project.Strictness
import Groundplan.Proofs.Project.Credentials
import Groundplan.Proofs.Spec.Faults
import Groundplan.Proofs.Rollout.References
import Groundplan.Proofs.Module.Registry
import Groundplan.Proofs.Module.Discovery
import Groundplan.Proofs.Project.Regeneration
import Groundplan.Proofs.Project.History
import Groundplan.Proofs.Hcl.Keys
import Groundplan.Proofs.Settings.Precedence
import Groundplan.Proofs.Project.Interface
import Groundplan.Proofs.Command.Preview
import Groundplan.Proofs.Network.Notation
import Groundplan.Proofs.Network.Layout
import Groundplan.Proofs.Project.AddressRange
import Groundplan.Proofs.Rollout.Waiting
import Groundplan.Proofs.Hcl.Grammar
import Groundplan.Proofs.Hcl.Unambiguous
import Groundplan.Proofs.Rollout.Pattern
import Groundplan.Proofs.Rollout.Inventory
import Groundplan.Proofs.Project.Overwriting
import Groundplan.Proofs.Project.Banner
import Groundplan.Proofs.Hcl.Alignment
import Groundplan.Proofs.Hcl.Pieces
import Groundplan.Proofs.Spec.Absence
