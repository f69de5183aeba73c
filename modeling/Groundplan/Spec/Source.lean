import Groundplan.Json.Reader
import Groundplan.Spec.Decode
import Groundplan.Text.Utf8
import Groundplan.Yaml.Value

/-!
Where specifications come from: a document value, or a text in one of two formats.
-/

namespace Groundplan

/-- Why a source has no specification. -/
inductive SpecReason
  | empty
  | noMapping (typeName : String)
  | invalidYaml (fault : Yaml.Fault)
  | invalidJson (fault : Json.Fault)
  | notUtf8 (m : Text.Utf8.Malformed)
  | violations (vs : List Violation)
  deriving DecidableEq

/-- A source without a specification. -/
structure SpecError where
  source : String
  reason : SpecReason
  deriving DecidableEq

/-- What can stop a specification from being read.  Only the first kind names the source. -/
inductive SourceFault
  | spec (e : SpecError)
  /-- A scalar in a text that is well formed has no value. -/
  | scalar (fault : Yaml.Fault)
  /-- An integer in a JSON text has more digits than are converted. -/
  | digits (count : Nat)
  /-- An integer that stands for a text has too many digits to be written. -/
  | unwritable
  /-- The values of a text are nested more deeply than the reader can follow. -/
  | nesting
  deriving DecidableEq

namespace SpecReason

def message : SpecReason → String
  | .empty => "document is empty"
  | .noMapping typeName => s!"expected a mapping at the document root, got {typeName}"
  | .invalidYaml fault => "invalid YAML: " ++ fault.message
  | .invalidJson fault => "invalid JSON: " ++ fault.message
  | .notUtf8 m => "not valid UTF-8: " ++ m.message
  | .violations vs => Violation.messages vs

end SpecReason

def SpecError.message (e : SpecError) : String :=
  "Cannot parse " ++ e.source ++ ": " ++ e.reason.message

def SourceFault.message : SourceFault → String
  | .spec e => e.message
  | .scalar fault => fault.message
  | .digits count => Number.excessMessage count
  | .unwritable => Number.unwritableMessage
  | .nesting => "maximum recursion depth exceeded"

namespace Spec

/-- The specification in a document value.  An integer that cannot be written ends the
decoding, whatever else stands against the document. -/
def ofDatum (source : String) (d : Datum) : Except SourceFault Spec :=
  match d with
  | .null => .error (.spec ⟨source, .empty⟩)
  | .mapping _ =>
    match Spec.decode d with
    | .ok spec => .ok spec
    | .bad vs =>
      if vs.any fun v => v.complaint == .unwritable then .error .unwritable
      else .error (.spec ⟨source, .violations vs⟩)
  | d => .error (.spec ⟨source, .noMapping d.typeName⟩)

/-- Which texts are nested too deeply for their reader.  The depth that it can follow is
not fixed: it depends on what has been called before. -/
abbrev Nesting := String → Bool

/-- The specification in a YAML text. -/
def ofYaml (source text : String) (isTooDeep : Nesting := fun _ => false) :
    Except SourceFault Spec :=
  if isTooDeep text then .error .nesting
  else match Yaml.parse text with
    | .ok d => ofDatum source d
    | .error fault =>
      match fault with
      | .malformed _ _ _ => .error (.spec ⟨source, .invalidYaml fault⟩)
      | fault => .error (.scalar fault)

/-- The specification in a JSON text. -/
def ofJson (source text : String) (isTooDeep : Nesting := fun _ => false) :
    Except SourceFault Spec :=
  if isTooDeep text then .error .nesting
  else match Json.parse text with
    | .ok d => ofDatum source d
    | .error (.malformed fault) => .error (.spec ⟨source, .invalidJson fault⟩)
    | .error (.digits count) => .error (.digits count)

end Spec
end Groundplan
