/-!
Tokens of YAML.  Indentation is turned into tokens that open and close block
collections, so the order of tokens alone determines the tree.
-/

namespace Groundplan
namespace Yaml

/-- What a directive sets. -/
inductive Directive
  | version (major minor : Nat)
  | tagHandle (handle stem : String)
  | other
  deriving DecidableEq, Inhabited

/-- The text of a scalar, with a mark for those that were written without quotes and
outside a block scalar: only their type follows from their text. -/
structure ScalarText where
  text : String
  plain : Bool
  deriving DecidableEq, Inhabited

inductive Token
  | directive (d : Directive)
  | documentStart
  | documentEnd
  | blockSequenceStart
  | blockMappingStart
  | blockEnd
  | flowSequenceStart
  | flowSequenceEnd
  | flowMappingStart
  | flowMappingEnd
  | blockEntry
  | flowEntry
  | key
  | value
  | alias (name : String)
  | anchor (name : String)
  | tag (handle : Option String) (suffix : String)
  | scalar (s : ScalarText)
  deriving DecidableEq, Inhabited

end Yaml
end Groundplan
