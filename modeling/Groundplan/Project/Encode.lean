import Groundplan.Project.Write
import Groundplan.Text.Surrogate

/-!
Projects with texts that cannot be encoded.  Texts are encoded one by one, each when its
file is written, so the files in front of such a text are written all the same.
-/

namespace Groundplan
namespace Project

open Storage

/-- The first file whose text cannot be encoded, with the files in front of it. -/
structure Stop where
  done : List (String × String)
  failing : String × String
  fault : Text.Unencodable

/-- Where encoding the texts of files, with the halves that they have, ends. -/
def stop? (halves : String → List Text.Half) : List (String × String) → Option Stop
  | [] => none
  | f :: rest =>
    match Text.unencodable? (halves f.2) with
    | some fault => some { done := [], failing := f, fault }
    | none => (stop? halves rest).map fun s => { s with done := f :: s.done }

/-- The files up to a stop with the texts that they are left with.  The failing one is
opened before its text is encoded, and so it is left empty. -/
def Stop.opened (s : Stop) : List (String × String) := s.done ++ [(s.failing.1, "")]

/-- Writes the files up to a stop. -/
def writeUpTo (d : Disk) (root : Path) (s : Stop) : Writing (List Path) :=
  { writeFiles d root (s.done ++ [s.failing]) with disk := (writeFiles d root s.opened).disk }

end Project
end Groundplan
