import Groundplan.Hcl.Document
import Groundplan.Hcl.Literal
import Groundplan.Text.Blank
import Groundplan.Text.Lines

/-!
The layout of generated files: two spaces for each level, equals signs aligned over
neighbouring attributes that fit on one line, and an empty line around nested blocks.
-/

namespace Groundplan
namespace Hcl

/-- A value that the language cannot express. -/
inductive RenderFault
  | foreign (typeName : String)
  deriving DecidableEq

def RenderFault.message : RenderFault → String
  | .foreign typeName => s!"Cannot render {typeName} as HCL"

def indent (level : Int) : String :=
  String.ofList (List.replicate (2 * level).toNat ' ')

def joinLines (lines : List String) : String := "\n".intercalate lines

/-- Whether a value keeps its list on one line. -/
def Value.isSimple : Value → Bool
  | .call _ _ | .list _ | .object _ => false
  | _ => true

def isMultiLine (text : String) : Bool := text.toList.contains '\n'

/-- A name with spaces behind it up to the given width. -/
def padName (width : Nat) (name : String) : String :=
  name ++ String.ofList (List.replicate (width - name.length) ' ')

def maxLength (names : List String) : Nat :=
  (names.map String.length).foldl max 0

/-- Consecutive attributes whose values fit on one line have their equals signs in one
column. -/
def alignedLines (level : Int) (group : List (String × String)) : List String :=
  let width := maxLength (group.map Prod.fst)
  group.map fun (name, text) => indent level ++ padName width name ++ " = " ++ text

/-- The lines of attributes whose values are already rendered.  A value of several
lines ends a group and is not padded itself. -/
def attributeLines (level : Int) (attrs : List (String × String)) : List String :=
  (attrs.splitBy fun a b => !isMultiLine a.2 && !isMultiLine b.2).flatMap fun
    | [(name, text)] =>
      if isMultiLine text then [indent level ++ name ++ " = " ++ text]
      else alignedLines level [(name, text)]
    | group => alignedLines level group

mutual
/-- The text of a value; its lines after the first are indented for `level`. -/
def renderValue (level : Int) : Value → Except RenderFault String
  | .null => .ok "null"
  | .bool b => .ok (if b then "true" else "false")
  | .int n => .ok (toString n)
  | .float x => .ok x.toText
  | .text s => .ok (quote s)
  | .template s => .ok (quoteTemplate s)
  | .expr s => .ok s
  | .call name args => do
    let args ← renderValues level args
    return name ++ "(" ++ ", ".intercalate args ++ ")"
  | .list [] => .ok "[]"
  | .list items =>
    if items.all Value.isSimple then do
      let items ← renderValues level items
      return "[" ++ ", ".intercalate items ++ "]"
    else do
      let items ← renderValues (level + 1) items
      let lines := items.map fun text => indent (level + 1) ++ text ++ ","
      return joinLines ("[" :: (lines ++ [indent level ++ "]"]))
  | .object [] => .ok "\x7b\x7d"
  | .object entries => do
    let entries ← renderEntries (level + 1) entries
    return joinLines ("\x7b" :: (attributeLines (level + 1) entries ++ [indent level ++ "\x7d"]))
  | .foreign typeName => .error (.foreign typeName)

def renderValues (level : Int) : List Value → Except RenderFault (List String)
  | [] => .ok []
  | v :: vs => do
    let text ← renderValue level v
    let texts ← renderValues level vs
    return text :: texts

/-- The keys and values of an object, in the form of attributes. -/
def renderEntries (level : Int) : List (String × Value) → Except RenderFault (List (String × String))
  | [] => .ok []
  | (k, v) :: rest => do
    let text ← renderValue level v
    let texts ← renderEntries level rest
    return (key k, text) :: texts
end

/-- The lines of a run of attributes. -/
def renderAttributes (level : Int) (attrs : List Attribute) : Except RenderFault (List String) := do
  let rendered ← attrs.mapM fun a => do return (a.name, ← renderValue level a.value)
  return attributeLines level rendered

def commentLines (level : Int) (text : String) : List String :=
  (Text.lines text).map fun line => Text.stripEnd (indent level ++ "# " ++ line)

def blockHead (type : String) (labels : List String) : String :=
  " ".intercalate (type :: labels.map quote)

/-- An empty line stands before a block and after one, unless the item in front is a
comment or a blank already. -/
def needsGap (previous : Option Item) (item : Item) : Bool :=
  match previous with
  | none => false
  | some p => !p.isComment && !p.isBlank && (item.isBlock || p.isBlock)

def gapLines (previous : Option Item) (item : Item) : List String :=
  if needsGap previous item then [""] else []

mutual
/-- The lines of a body.  `run` holds the attributes that were met since the last other
item and wait for their common column. -/
def bodyLines (level : Int) (previous : Option Item) (run : List Attribute) :
    List Item → Except RenderFault (List String)
  | [] => renderAttributes level run
  | .attribute name value :: rest => do
    let item := Item.attribute name value
    if needsGap previous item then
      let before ← renderAttributes level run
      let after ← bodyLines level (some item) [⟨name, value⟩] rest
      return before ++ "" :: after
    else bodyLines level (some item) (run ++ [⟨name, value⟩]) rest
  | .block type labels body :: rest => do
    let item := Item.block type labels body
    let before ← renderAttributes level run
    let inner ← blockLines level type labels body
    let after ← bodyLines level (some item) [] rest
    return before ++ gapLines previous item ++ inner ++ after
  | .comment text :: rest => do
    let item := Item.comment text
    let before ← renderAttributes level run
    let after ← bodyLines level (some item) [] rest
    return before ++ gapLines previous item ++ commentLines level text ++ after
  | .blank :: rest => do
    let before ← renderAttributes level run
    let after ← bodyLines level (some .blank) [] rest
    return before ++ gapLines previous .blank ++ "" :: after

/-- The lines of a block, which is on one line if it is empty. -/
def blockLines (level : Int) (type : String) (labels : List String) (body : List Item) :
    Except RenderFault (List String) :=
  match body with
  | [] => .ok [indent level ++ blockHead type labels ++ " \x7b\x7d"]
  | items => do
    let inner ← bodyLines (level + 1) none [] items
    return (indent level ++ blockHead type labels ++ " \x7b") :: (inner ++ [indent level ++ "\x7d"])
end

/-- The lines of one top-level item. -/
def itemLines : Item → Except RenderFault (List String)
  | .attribute name value => renderAttributes 0 [⟨name, value⟩]
  | .block type labels body => blockLines 0 type labels body
  | .comment text => .ok (commentLines 0 text)
  | .blank => .ok []

/-- The lines of a document: an empty line after every item that is not a comment. -/
def documentLines (previous : Option Item) : List Item → Except RenderFault (List String)
  | [] => .ok []
  | item :: rest => do
    let gap := if previous.any (!·.isComment) then [""] else []
    let inner ← itemLines item
    let after ← documentLines (some item) rest
    return gap ++ inner ++ after

/-- The text of a document. -/
def Document.render (d : Document) : Except RenderFault String := do
  let lines ← documentLines none d.items
  return joinLines lines ++ "\n"

end Hcl
end Groundplan
