/-
Sources without a specification.

Whoever loads a specification expects to be told which source is at fault.  What can stop the
load is that there is no file, or that the source is refused as a whole; both say which one it
is.  What says nothing of the source is a value in it: a scalar that has none, an integer with
too many digits to be read or written, and values that are nested too deeply to be followed.
-/
import Groundplan.Proofs.Json.Faults
import Groundplan.Proofs.Spec.Source
import Groundplan.Proofs.Spec.Writable
import Groundplan.Proofs.Yaml.Values

namespace Groundplan
namespace Spec

variable (isTooDeep : Nesting)

end Spec
end Groundplan
