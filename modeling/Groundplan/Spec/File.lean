import Groundplan.Spec.Source
import Groundplan.Storage.Disk

/-!
Specifications in files.  The extension decides between the two formats.
-/

namespace Groundplan

/-- Why a file gives no specification. -/
inductive FileFault
  | missing (path : Storage.Path)
  | source (fault : SourceFault)

def FileFault.message : FileFault → String
  | .missing path => "SCORE file not found: " ++ path.toText
  | .source fault => fault.message

/-- The specification in a file. -/
def Spec.ofFile (disk : Storage.Disk) (path : Storage.Path)
    (isTooDeep : Nesting := fun _ => false) : Except FileFault Spec :=
  match disk.stat? path with
  | some (.file bytes) =>
    let source := path.toText
    match Text.Utf8.decode bytes with
    | .error m => .error (.source (.spec ⟨source, .notUtf8 m⟩))
    | .ok s =>
      let text := String.ofList (Text.unifyNewlines s.toList)
      (if path.suffix = ".json" then ofJson source text isTooDeep
        else ofYaml source text isTooDeep).mapError .source
  | _ => .error (.missing path)

end Groundplan
