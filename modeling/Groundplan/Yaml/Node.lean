import Groundplan.Yaml.Tag
import Groundplan.Yaml.Token.Lexer

/-!
The tree of a YAML document.  Every node has a tag; an alias is replaced by the node it
names.
-/

namespace Groundplan
namespace Yaml

inductive Node
  | scalar (tag : String) (text : String)
  | sequence (tag : String) (items : List Node)
  | mapping (tag : String) (entries : List (Node × Node))
  deriving Inhabited

namespace Node

def tag : Node → String
  | .scalar t _ => t
  | .sequence t _ => t
  | .mapping t _ => t

/-- The node that stands where none is written. -/
def empty : Node := .scalar Tag.null ""

/-- What is known while tokens are turned into nodes. -/
structure Reading where
  tokens : List Token
  /-- The nodes that have an anchor; a node that is not complete yet is absent. -/
  anchors : List (String × Option Node) := []
  tagHandles : List (String × String) := [("!", "!"), ("!!", "tag:yaml.org,2002:")]

abbrev Reader := StateT Reading (Except Fault)

/-- Tokens have no place of their own, so a problem in their order is reported at the
start of the text. -/
def fail {α : Type} (problem : Problem) : Reader α :=
  throw (.malformed problem 1 1)

def peek : Reader (Option Token) := return (← get).tokens.head?

def skip : Reader Unit := modify fun r => { r with tokens := r.tokens.tail }

/-- Takes a token if it is the next one. -/
def accept (t : Token) : Reader Bool := do
  if (← peek) == some t then
    skip
    return true
  else return false

/-- Whether the next token is one of the given ones; `none` is the end of the text. -/
def nextIn (ts : List (Option Token)) : Reader Bool := return ts.contains (← peek)

/-- The anchor and the tag in front of a node. -/
structure Properties where
  anchor : Option String := none
  tag : Option (Option String × String) := none

def properties : Reader Properties := do
  match ← peek with
  | some (.anchor a) =>
    skip
    match ← peek with
    | some (.tag h s) =>
      skip
      return { anchor := some a, tag := some (h, s) }
    | _ => return { anchor := some a }
  | some (.tag h s) =>
    skip
    match ← peek with
    | some (.anchor a) =>
      skip
      return { anchor := some a, tag := some (h, s) }
    | _ => return { tag := some (h, s) }
  | _ => return {}

/-- The full tag behind a handle and a suffix. -/
def resolveTag : Option (Option String × String) → Reader (Option String)
  | none => return none
  | some (none, suffix) => return some suffix
  | some (some handle, suffix) => do
    match (← get).tagHandles.lookup handle with
    | some stem => return some (stem ++ suffix)
    | none => fail .undefinedTagHandle

/-- The tag of a scalar.  Without a tag only a plain one takes its type from its text;
the non-specific tag makes any scalar do so. -/
def scalarTag (tag : Option String) (s : ScalarText) : String :=
  match tag with
  | none => if s.plain then Tag.ofPlain s.text else Tag.str
  | some t => if t = "!" then Tag.ofPlain s.text else t

def collectionTag (standard : String) (tag : Option String) : String :=
  match tag with
  | none => standard
  | some t => if t = "!" then standard else t

/-- Records that an anchor is in use; each may be used once. -/
def openAnchor : Option String → Reader Unit
  | none => return
  | some a => do
    if ((← get).anchors.lookup a).isSome then fail .duplicateAnchor
    modify fun r => { r with anchors := (a, none) :: r.anchors }

def closeAnchor (anchor : Option String) (n : Node) : Reader Node := do
  match anchor with
  | none => return n
  | some a =>
    modify fun r => { r with anchors := (a, some n) :: r.anchors }
    return n

def aliased (name : String) : Reader Node := do
  match (← get).anchors.lookup name with
  | none => fail .undefinedAlias
  | some none => fail .recursiveAlias
  | some (some n) => return n

/-- Where a node stands, which decides the collections that may start there. -/
inductive Place
  | flow
  | block
  /-- A value of a block mapping, where a sequence needs no deeper indentation. -/
  | blockValue
  deriving DecidableEq

/-- Items of a flow collection stand apart by a comma. -/
def expectFlowEntry : Reader Unit := do
  unless ← accept .flowEntry do fail .missingFlowSeparator

mutual
/-- A node with its properties.  Each call takes one unit of `fuel`. -/
def read (place : Place) : Nat → Reader Node
  | 0 => fail .missingContent
  | fuel + 1 => do
    match ← peek with
    | some (.alias name) =>
      skip
      aliased name
    | _ =>
      let p ← properties
      let tag ← resolveTag p.tag
      let seq := collectionTag Tag.seq tag
      let map := collectionTag Tag.map tag
      match ← peek with
      | some (.scalar s) =>
        skip
        openAnchor p.anchor
        closeAnchor p.anchor (.scalar (scalarTag tag s) s.text)
      | some .flowSequenceStart =>
        skip
        openAnchor p.anchor
        closeAnchor p.anchor (.sequence seq (← flowItems fuel true))
      | some .flowMappingStart =>
        skip
        openAnchor p.anchor
        closeAnchor p.anchor (.mapping map (← flowEntries fuel true))
      | some .blockEntry =>
        if place = .blockValue then
          openAnchor p.anchor
          closeAnchor p.anchor (.sequence seq (← indentlessItems fuel))
        else propertiesOnly p tag
      | some .blockSequenceStart =>
        if place = .flow then propertiesOnly p tag
        else
          skip
          openAnchor p.anchor
          closeAnchor p.anchor (.sequence seq (← blockItems fuel))
      | some .blockMappingStart =>
        if place = .flow then propertiesOnly p tag
        else
          skip
          openAnchor p.anchor
          closeAnchor p.anchor (.mapping map (← blockEntries fuel))
      | _ => propertiesOnly p tag

/-- A node that consists of its properties is an empty scalar. -/
def propertiesOnly (p : Properties) (tag : Option String) : Reader Node := do
  if p.anchor.isNone && p.tag.isNone then fail .missingContent
  openAnchor p.anchor
  closeAnchor p.anchor (.scalar (scalarTag tag ⟨"", true⟩) "")

/-- A node, or the empty one in front of the given tokens. -/
def readUnless (place : Place) (stops : List (Option Token)) : Nat → Reader Node
  | 0 => fail .missingContent
  | fuel + 1 => do
    if ← nextIn stops then return empty else read place fuel

def blockItems : Nat → Reader (List Node)
  | 0 => fail .missingBlockEnd
  | fuel + 1 => do
    if ← accept .blockEntry then
      let item ← readUnless .block [some .blockEntry, some .blockEnd] fuel
      return item :: (← blockItems fuel)
    else if ← accept .blockEnd then return []
    else fail .missingBlockEnd

def indentlessItems : Nat → Reader (List Node)
  | 0 => fail .missingBlockEnd
  | fuel + 1 => do
    if ← accept .blockEntry then
      let item ← readUnless .block
        [some .blockEntry, some .key, some .value, some .blockEnd] fuel
      return item :: (← indentlessItems fuel)
    else return []

def blockEntries : Nat → Reader (List (Node × Node))
  | 0 => fail .missingBlockEnd
  | fuel + 1 => do
    if ← accept .blockEnd then return []
    else if ← accept .key then
      let stops := [some .key, some .value, some .blockEnd]
      let key ← readUnless .blockValue stops fuel
      let value ← if ← accept .value then readUnless .blockValue stops fuel else pure empty
      return (key, value) :: (← blockEntries fuel)
    else fail .missingBlockEnd

/-- Items of a flow sequence; a key makes an item a mapping with one entry. -/
def flowItems : Nat → Bool → Reader (List Node)
  | 0, _ => fail .missingFlowSeparator
  | fuel + 1, first => do
    if ← accept .flowSequenceEnd then return []
    else
      unless first do expectFlowEntry
      if ← accept .key then
        let stops := [some .flowEntry, some .flowSequenceEnd]
        let key ← readUnless .flow (some .value :: stops) fuel
        let value ← if ← accept .value then readUnless .flow stops fuel else pure empty
        return .mapping Tag.map [(key, value)] :: (← flowItems fuel false)
      else if ← accept .flowSequenceEnd then return []
      else
        let item ← read .flow fuel
        return item :: (← flowItems fuel false)

def flowEntries : Nat → Bool → Reader (List (Node × Node))
  | 0, _ => fail .missingFlowSeparator
  | fuel + 1, first => do
    if ← accept .flowMappingEnd then return []
    else
      unless first do expectFlowEntry
      if ← accept .key then
        let stops := [some .flowEntry, some .flowMappingEnd]
        let key ← readUnless .flow (some .value :: stops) fuel
        let value ← if ← accept .value then readUnless .flow stops fuel else pure empty
        return (key, value) :: (← flowEntries fuel false)
      else if ← accept .flowMappingEnd then return []
      else
        let key ← read .flow fuel
        return (key, empty) :: (← flowEntries fuel false)
end

/-- Applies the directives in front of a document. -/
def directives : Nat → Option (Nat × Nat) → List (String × String) → Reader Unit
  | 0, _, _ => return
  | fuel + 1, version, handles => do
    match ← peek with
    | some (.directive d) =>
      skip
      match d with
      | .version major minor =>
        if version.isSome then fail .duplicateDirective
        if major ≠ 1 then fail .version
        directives fuel (some (major, minor)) handles
      | .tagHandle handle stem =>
        if (handles.lookup handle).isSome then fail .duplicateDirective
        directives fuel version ((handle, stem) :: handles)
      | .other => directives fuel version handles
    | _ => modify fun r => { r with tagHandles := handles ++ r.tagHandles }

def skipDocumentEnds : Nat → Reader Unit
  | 0 => return
  | fuel + 1 => do
    if ← accept .documentEnd then skipDocumentEnds fuel

def isDirective : Option Token → Bool
  | some (.directive _) => true
  | _ => false

/-- The only document of the text, or nothing if there is none. -/
def document (fuel : Nat) : Reader (Option Node) := do
  let first ← peek
  if first.isNone then return none
  let node ←
    if isDirective first || first == some .documentStart then do
      directives fuel none []
      unless ← accept .documentStart do fail .missingDocumentStart
      if isDirective (← peek) ||
          (← nextIn [some .documentStart, some .documentEnd, none]) then
        pure empty
      else read .block fuel
    else read .block fuel
  skipDocumentEnds fuel
  if (← peek).isSome then fail .severalDocuments
  return some node

/-- The tree of a text.  A node takes at most two calls for each of its tokens, so three
times their number is enough fuel. -/
def parse (text : String) : Except Fault (Option Node) := do
  let ts ← tokens text.toList
  let (node, _) ← (document (3 * ts.length + 3)).run { tokens := ts }
  return node

end Node
end Yaml
end Groundplan
