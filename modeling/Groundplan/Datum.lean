import Groundplan.Calendar
import Groundplan.Number.Binary64

/-!
Document values.  A specification is written in one of two text formats; both are
read into this type before anything is known about the meaning of the document.
-/

namespace Groundplan

/-- A value of a document.  A mapping keeps the order of its entries and holds each
key once; keys may be any value that is not a collection.  Documents that are built and
not read may also hold source text of the configuration language, and values of types
that no document format has. -/
inductive Datum
  | null
  | bool (b : Bool)
  | int (n : Int)
  | float (x : Binary64)
  | text (s : String)
  | bytes (bs : List UInt8)
  | date (d : Date)
  | dateTime (t : DateTime)
  | list (items : List Datum)
  | tuple (items : List Datum)
  | set (items : List Datum)
  | mapping (entries : List (Datum × Datum))
  | expr (source : String)
  | template (source : String)
  | call (name : String) (args : List Datum)
  | foreign (typeName : String)
  deriving Inhabited

/-- Named values in order, with each name once. -/
abbrev Entries := List (String × Datum)

namespace Datum

/-- What a value is called in messages. -/
def typeName : Datum → String
  | .null => "NoneType"
  | .bool _ => "bool"
  | .int _ => "int"
  | .float _ => "float"
  | .text _ => "str"
  | .bytes _ => "bytes"
  | .date _ => "date"
  | .dateTime _ => "datetime"
  | .list _ => "list"
  | .tuple _ => "tuple"
  | .set _ => "set"
  | .mapping _ => "dict"
  | .expr _ => "Expr"
  | .template _ => "Template"
  | .call _ _ => "Call"
  | .foreign typeName => typeName

def isNull : Datum → Bool
  | .null => true
  | _ => false

/-- Whether a value counts as nothing: false, zero and whatever is empty. -/
def isNothing : Datum → Bool
  | .null => true
  | .bool b => !b
  | .int n => n == 0
  | .float x => x.equal .zero
  | .text s => s.isEmpty
  | .bytes bs => bs.isEmpty
  | .list xs | .tuple xs | .set xs => xs.isEmpty
  | .mapping entries => entries.isEmpty
  | _ => false

/-- Truth values count as the numbers zero and one. -/
def asInt? : Datum → Option Int
  | .bool b => some (if b then 1 else 0)
  | .int n => some n
  | _ => none

mutual
/-- Whether two keys name the same entry.  Numbers are compared by value across their
types, and times by instant. -/
def sameKey : Datum → Datum → Bool
  | .null, .null => true
  | .text s, .text t => s == t
  | .bytes s, .bytes t => s == t
  | .date s, .date t => s == t
  | .dateTime s, .dateTime t => s.same t
  | .tuple xs, .tuple ys => sameKeys xs ys
  | .expr s, .expr t => s == t
  | .template s, .template t => s == t
  | .call f xs, .call g ys => f == g && sameKeys xs ys
  | .float x, .float y => x.equal y
  | .float x, y =>
    match y.asInt? with
    | some n => x.toInt? == some n
    | none => false
  | x, .float y =>
    match x.asInt? with
    | some n => y.toInt? == some n
    | none => false
  | x, y =>
    match x.asInt?, y.asInt? with
    | some m, some n => m == n
    | _, _ => false

def sameKeys : List Datum → List Datum → Bool
  | [], [] => true
  | x :: xs, y :: ys => sameKey x y && sameKeys xs ys
  | _, _ => false
end

/-- Sets the value of a key, in its old place if the key is there and at the end
otherwise. -/
def insertEntry (key value : Datum) : List (Datum × Datum) → List (Datum × Datum)
  | [] => [(key, value)]
  | (k, v) :: rest =>
    if sameKey k key then (k, value) :: rest else (k, v) :: insertEntry key value rest

/-- Builds the entries of a mapping from pairs in order. -/
def entriesOfPairs (pairs : List (Datum × Datum)) : List (Datum × Datum) :=
  pairs.foldl (fun entries p => insertEntry p.1 p.2 entries) []

/-- A mapping from pairs in order; of equal keys the first keeps the place and the
last the value. -/
def ofPairs (pairs : List (Datum × Datum)) : Datum :=
  .mapping (entriesOfPairs pairs)

/-- A set from its members in order. -/
def setOf (items : List Datum) : Datum :=
  .set ((entriesOfPairs (items.map fun x => (x, .null))).map Prod.fst)

mutual
/-- Whether a value may be a key: collections that can change may not. -/
def isKey : Datum → Bool
  | .list _ | .set _ | .mapping _ => false
  | .tuple items | .call _ items => areKeys items
  | _ => true

def areKeys : List Datum → Bool
  | [] => true
  | x :: xs => isKey x && areKeys xs
end

end Datum

namespace Entries

/-- Sets the value of a name, in its old place if it is there and at the end
otherwise. -/
def insert {α : Type} (name : String) (value : α) : List (String × α) → List (String × α)
  | [] => [(name, value)]
  | (n, v) :: rest =>
    if n = name then (n, value) :: rest else (n, v) :: insert name value rest

/-- Builds entries from pairs in order. -/
def ofPairs {α : Type} (pairs : List (String × α)) : List (String × α) :=
  pairs.foldl (fun entries p => insert p.1 p.2 entries) []

end Entries
end Groundplan
