import Groundplan.Calendar
import Groundplan.Number.Reading
import Groundplan.Text.Quoted

/-!
What can be wrong with a YAML text.  A problem of form has a place in the text.  A text
may also be well formed and hold a scalar whose type admits no such value; those faults
are kept apart.
-/

namespace Groundplan
namespace Yaml

/-- Problems of form, from characters up to the tree of nodes. -/
inductive Problem
  | forbiddenCharacter
  | unexpectedCharacter
  | missingColon
  | misplacedEntry
  | misplacedKey
  | misplacedValue
  | directive
  | version
  | duplicateDirective
  | tag
  | undefinedTagHandle
  | anchor
  | duplicateAnchor
  | undefinedAlias
  | recursiveAlias
  | unterminatedScalar
  | documentSeparator
  | escape
  | blockScalarHeader
  | missingContent
  | missingBlockEnd
  | missingFlowSeparator
  | missingDocumentStart
  | severalDocuments
  | unknownTag
  | wrongNodeKind
  | unhashableKey
  | wrongMerge
  | binary
  deriving DecidableEq, Inhabited

def Problem.message : Problem → String
  | .forbiddenCharacter => "a character that is not allowed"
  | .unexpectedCharacter => "a character that cannot start a token"
  | .missingColon => "a colon is missing after a key"
  | .misplacedEntry => "a sequence entry is not allowed here"
  | .misplacedKey => "a mapping key is not allowed here"
  | .misplacedValue => "a mapping value is not allowed here"
  | .directive => "a malformed directive"
  | .version => "an unsupported version"
  | .duplicateDirective => "a repeated directive"
  | .tag => "a malformed tag"
  | .undefinedTagHandle => "an undefined tag handle"
  | .anchor => "a malformed anchor or alias"
  | .duplicateAnchor => "a repeated anchor"
  | .undefinedAlias => "an undefined alias"
  | .recursiveAlias => "an alias inside the node it names"
  | .unterminatedScalar => "a quoted scalar that does not end"
  | .documentSeparator => "a document separator inside a quoted scalar"
  | .escape => "an unknown escape"
  | .blockScalarHeader => "a malformed block scalar header"
  | .missingContent => "a node is expected here"
  | .missingBlockEnd => "the block does not end here"
  | .missingFlowSeparator => "a comma or a closing bracket is expected here"
  | .missingDocumentStart => "a document start is expected here"
  | .severalDocuments => "more than one document"
  | .unknownTag => "a tag without a type"
  | .wrongNodeKind => "a node of the wrong kind for its tag"
  | .unhashableKey => "a collection as a key"
  | .wrongMerge => "a merge of something that is no mapping"
  | .binary => "malformed binary data"

/-- A fault in a YAML text. -/
inductive Fault
  | malformed (problem : Problem) (line column : Nat)
  | calendar (fault : CalendarFault)
  | integer (base : Nat) (text : String)
  /-- An integer has more digits than are converted. -/
  | digits (count : Nat)
  | float (text : String)
  /-- A part of a number in base sixty has a weight that is above all floats. -/
  | weight
  | emptyNumber
  | truth (text : String)
  | timestamp
  | codePoint (code : Nat)
  deriving DecidableEq

namespace Fault

/-- Code points from here on do not even fit the range in which they are looked up. -/
def codePointLimit : Nat := 0x80000000

def message : Fault → String
  | .malformed problem line column => s!"{problem.message}: line {line}, column {column}"
  | .calendar fault => fault.message
  | .integer base text => Number.literalMessage base text
  | .digits count => Number.excessMessage count
  | .float text => "could not convert string to float: " ++ Text.quoted text
  | .weight => "int too large to convert to float"
  | .emptyNumber => "string index out of range"
  | .truth text => Text.quoted text
  | .timestamp => "'NoneType' object has no attribute 'groupdict'"
  | .codePoint code =>
    if codePointLimit ≤ code then "signed integer is greater than maximum"
    else "chr() arg not in range(0x110000)"

end Fault
end Yaml
end Groundplan
