import Groundplan.Datum.Display

/-!
Documents of the configuration language.  Generated files are built as trees of
blocks and attributes, so quoting and indentation are decided in one place, the
renderer.
-/

namespace Groundplan
namespace Hcl

/-- The right-hand side of an attribute.  `expr` is source text that is written as it
is, `template` a literal whose interpolations stay live, and `foreign` a value that
the language cannot express, with the name of its type. -/
inductive Value
  | null
  | bool (b : Bool)
  | int (n : Int)
  | float (x : Binary64)
  | text (s : String)
  | template (s : String)
  | expr (s : String)
  | call (name : String) (args : List Value)
  | list (items : List Value)
  | object (entries : List (String × Value))
  | foreign (typeName : String)
  deriving Inhabited

mutual
/-- The value that a document value denotes in generated files.  Keys that are not
texts take their plain form. -/
def Value.ofDatum : Datum → Value
  | .null => .null
  | .bool b => .bool b
  | .int n => .int n
  | .float x => .float x
  | .text s => .text s
  | .list items | .tuple items => .list (Value.ofData items)
  | .mapping entries => .object (Value.ofDatumEntries entries)
  | .expr source => .expr source
  | .template source => .template source
  | .call name args => .call name (Value.ofData args)
  | x => .foreign x.typeName

def Value.ofData : List Datum → List Value
  | [] => []
  | x :: xs => Value.ofDatum x :: Value.ofData xs

def Value.ofDatumEntries : List (Datum × Datum) → List (String × Value)
  | [] => []
  | (k, v) :: rest => (k.plainText, Value.ofDatum v) :: Value.ofDatumEntries rest
end

/-- An object from named document values. -/
def Value.ofEntries (entries : Entries) : Value :=
  .object (entries.map fun (k, v) => (k, Value.ofDatum v))

structure Attribute where
  name : String
  value : Value
  deriving Inhabited

/-- What a body or a document is made of.  A blank is an explicit empty line. -/
inductive Item
  | attribute (name : String) (value : Value)
  | block (type : String) (labels : List String) (body : List Item)
  | comment (text : String)
  | blank
  deriving Inhabited

namespace Item

def isBlock : Item → Bool
  | .block _ _ _ => true
  | _ => false

def isComment : Item → Bool
  | .comment _ => true
  | _ => false

def isBlank : Item → Bool
  | .blank => true
  | _ => false

end Item

def Attribute.toItem (a : Attribute) : Item := .attribute a.name a.value

structure Document where
  items : List Item
  deriving Inhabited

/-- The type and labels of every top-level block, or of those of one type. -/
def Document.blocks (d : Document) (type : Option String) : List (String × List String) :=
  d.items.filterMap fun
    | .block t labels _ => if type.all (· == t) then some (t, labels) else none
    | _ => none

end Hcl
end Groundplan
