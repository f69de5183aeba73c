import Groundplan.Datum
import Groundplan.Text.Lines
import Groundplan.Yaml.Base64
import Groundplan.Yaml.Node

/-!
The value of a YAML document.  Merge keys are resolved first, so that the value of a
mapping follows from its entries alone.  Of several faults the one nearest to the root
is reported, since values are made level by level.
-/

namespace Groundplan
namespace Yaml

/-- The tag of a mapping whose merge keys cannot be resolved. -/
def brokenMerge : String := "merge of no mapping"

/-- The entries of a mapping. -/
def mappingEntries : Node → Option (List (Node × Node))
  | .mapping t entries => if t = brokenMerge then none else some entries
  | _ => none

/-- The entries that a merge key brings in: those of a mapping, or of the mappings of a
sequence from the last to the first. -/
def mergedEntries : Node → Option (List (Node × Node))
  | .sequence _ items => (items.reverse.mapM mappingEntries).map List.flatten
  | n => mappingEntries n

/-- A key that is the sign for a default value counts as a string. -/
def plainKey : Node → Node
  | .scalar t s => if t = Tag.value then .scalar Tag.str s else .scalar t s
  | .sequence t items => if t = Tag.value then .sequence Tag.str items else .sequence t items
  | .mapping t entries => if t = Tag.value then .mapping Tag.str entries else .mapping t entries

/-- The entries of a mapping with its merge keys resolved: what is merged comes first, so
that the own entries override it. -/
def resolveMerges (entries : List (Node × Node)) : Option (List (Node × Node)) := do
  let merges := entries.filter fun (k, _) => k.tag == Tag.merge
  let own := entries.filter fun (k, _) => k.tag != Tag.merge
  let merged ← merges.mapM fun (_, v) => mergedEntries v
  return merged.flatten ++ own.map fun (k, v) => (plainKey k, v)

/-- Types whose mappings resolve merge keys. -/
def resolvesMerges (tag : String) : Bool := tag == Tag.map || tag == Tag.set

mutual
/-- Resolves the merge keys of all mappings from the leaves up. -/
def expand : Node → Node
  | .scalar t s => .scalar t s
  | .sequence t items =>
    if t = Tag.omap ∨ t = Tag.pairs then .sequence t (expandPairs items)
    else .sequence t (expandAll items)
  | .mapping t entries =>
    let entries := expandEntries entries
    if resolvesMerges t then
      match resolveMerges entries with
      | some es => .mapping t es
      | none => .mapping brokenMerge []
    else .mapping t entries

def expandAll : List Node → List Node
  | [] => []
  | n :: ns => expand n :: expandAll ns

/-- The items of an ordered mapping are entries and not mappings themselves. -/
def expandPairs : List Node → List Node
  | [] => []
  | .mapping t entries :: ns => .mapping t (expandEntries entries) :: expandPairs ns
  | n :: ns => n :: expandPairs ns

def expandEntries : List (Node × Node) → List (Node × Node)
  | [] => []
  | (k, v) :: rest => (expand k, expand v) :: expandEntries rest
end

/-- A value, or the fault that is met first with its depth. -/
abbrev Outcome (α : Type) := Except (Nat × Fault) α

namespace Outcome

/-- Combines two outcomes; of two faults the one of lesser depth counts, and of two of
equal depth the first. -/
def both {α β γ : Type} (f : α → β → γ) : Outcome α → Outcome β → Outcome γ
  | .ok a, .ok b => .ok (f a b)
  | .error e, .ok _ => .error e
  | .ok _, .error e => .error e
  | .error d, .error e => if e.1 < d.1 then .error e else .error d

end Outcome

/-- A problem in the tree has no place of its own. -/
def treeFault (problem : Problem) : Fault := .malformed problem 1 1

/-- The text of a scalar.  A mapping stands for the value of its default key. -/
def scalarText : Node → Option String
  | .scalar _ s => some s
  | .sequence _ _ => none
  | .mapping _ entries => textOfDefault entries
where
  textOfDefault : List (Node × Node) → Option String
    | [] => none
    | (k, v) :: rest => if k.tag = Tag.value then scalarText v else textOfDefault rest

def truth? (text : String) : Option Bool :=
  let word := String.ofList (text.toList.map Char.toLower)
  if word = "yes" || word = "true" || word = "on" then some true
  else if word = "no" || word = "false" || word = "off" then some false
  else none

def readInt (base : Nat) (cs : List Char) : Except Fault Int :=
  let s := String.ofList cs
  match if base = 10 then Number.excessDigits? s else none with
  | some count => .error (.digits count)
  | none =>
    match Number.parseInt? base s with
    | some n => .ok n
    | none => .error (.integer base s)

def readFloat (cs : List Char) : Except Fault Binary64 :=
  let s := String.ofList cs
  match Number.parseFloat? s with
  | some x => .ok x
  | none => .error (.float s)

/-- The digits behind an optional sign. -/
def signed (cs : List Char) : Except Fault (Bool × List Char) :=
  match cs with
  | [] => .error .emptyNumber
  | _ => .ok (Number.readSign cs)

/-- An integer in one of the five notations. -/
def intValue (text : String) : Except Fault Int := do
  let (negative, cs) ← signed (Number.dropUnderscores text.toList)
  let n ← match cs with
    | [] => throw .emptyNumber
    | ['0'] => pure 0
    | '0' :: 'b' :: ds => readInt 2 ds
    | '0' :: 'x' :: ds => readInt 16 ds
    | '0' :: ds => readInt 8 ('0' :: ds)
    | cs =>
      if cs.contains ':' then do
        let parts ← (Text.splitOn ':' cs).mapM (readInt 10)
        pure (parts.foldl (fun n d => 60 * n + d) 0)
      else readInt 10 cs
  return if negative then -n else n

/-- A number in base sixty, summed from its last part on.  The weights are integers, and
every one of them has to be a float as well. -/
def sexagesimal (parts : List Binary64) : Except Fault Binary64 := do
  let (sum, _) ← parts.reverse.foldlM (fun (sum, base) d =>
    match Binary64.ofInt base with
    | .infinite _ => .error .weight
    | weight => .ok (sum.add (d.mul weight), base * 60)) (Binary64.zero, (1 : Int))
  return sum

def floatValue (text : String) : Except Fault Binary64 := do
  let cs := (Number.dropUnderscores text.toList).map Char.toLower
  let (negative, cs) ← signed cs
  let x ←
    if cs = ".inf".toList then pure (Binary64.infinite false)
    else if cs = ".nan".toList then pure Binary64.nan
    else if cs.contains ':' then do
      sexagesimal (← (Text.splitOn ':' cs).mapM readFloat)
    else readFloat cs
  return if negative then x.neg else x

/-- The offset of a zone in minutes. -/
def zoneOffset : Option (Char × List Char × List Char) → Int
  | none => 0
  | some (sign, hours, minutes) =>
    Binary64.signed (sign == '-') (Number.digitsValue hours * 60 + Number.digitsValue minutes)

/-- The first six digits of a fraction, in millionths. -/
def microseconds (fraction : List Char) : Nat :=
  let ds := fraction.take 6
  Number.digitsValue (ds ++ List.replicate (6 - ds.length) '0')

def timestampValue (text : String) : Except Fault Datum :=
  match Tag.timestampText? (Tag.withoutFinalNewline text.toList) with
  | none => .error .timestamp
  | some t =>
    let year := Number.digitsValue t.year
    let month := Number.digitsValue t.month
    let day := Number.digitsValue t.day
    let built : Except CalendarFault Datum := match t.time with
      | none => (Date.check year month day).map .date
      | some time =>
        (DateTime.check year month day (Number.digitsValue time.hour)
          (Number.digitsValue time.minute) (Number.digitsValue time.second)
          (microseconds time.fraction) (time.zone.map zoneOffset)).map .dateTime
    built.mapError .calendar

/-- The value of a scalar with a tag. -/
def scalarValue (tag text : String) : Except Fault Datum :=
  if tag = Tag.str then .ok (.text text)
  else if tag = Tag.null then .ok .null
  else if tag = Tag.bool then
    match truth? text with
    | some b => .ok (.bool b)
    | none => .error (.truth (String.ofList (text.toList.map Char.toLower)))
  else if tag = Tag.int then (intValue text).map .int
  else if tag = Tag.float then (floatValue text).map .float
  else if tag = Tag.timestamp then timestampValue text
  else if tag = Tag.binary then
    if text.toList.all (·.toNat < 0x80) then
      match Base64.decode? text.toList with
      | some bytes => .ok (.bytes bytes)
      | none => .error (treeFault .binary)
    else .error (treeFault .binary)
  else .error (treeFault .unknownTag)

def scalarTags : List String :=
  [Tag.null, Tag.bool, Tag.int, Tag.float, Tag.binary, Tag.timestamp, Tag.str]

mutual
/-- The value of a node whose parent is made at `depth`. -/
def construct (depth : Nat) : Node → Outcome Datum
  | .scalar t s =>
    if scalarTags.contains t then (scalarValue t s).mapError fun e => (depth, e)
    else if [Tag.omap, Tag.pairs, Tag.set, Tag.seq, Tag.map].contains t then
      .error (depth + 1, treeFault .wrongNodeKind)
    else .error (depth, treeFault .unknownTag)
  | .sequence t items =>
    if t = Tag.seq then (constructAll (depth + 1) items).map .list
    else if t = Tag.omap ∨ t = Tag.pairs then (constructPairs (depth + 1) items).map .list
    else if t = Tag.map ∨ t = Tag.set then .error (depth + 1, treeFault .wrongNodeKind)
    else if scalarTags.contains t then .error (depth, treeFault .wrongNodeKind)
    else .error (depth, treeFault .unknownTag)
  | .mapping t entries =>
    if t = Tag.map then (constructEntries (depth + 1) entries).map .ofPairs
    else if t = Tag.set then
      (constructEntries (depth + 1) entries).map fun es => .setOf (es.map Prod.fst)
    else if t = brokenMerge then .error (depth + 1, treeFault .wrongMerge)
    else if [Tag.omap, Tag.pairs, Tag.seq].contains t then
      .error (depth + 1, treeFault .wrongNodeKind)
    else if scalarTags.contains t then
      match scalarText (.mapping t entries) with
      | some s => (scalarValue t s).mapError fun e => (depth, e)
      | none => .error (depth, treeFault .wrongNodeKind)
    else .error (depth, treeFault .unknownTag)

def constructAll (depth : Nat) : List Node → Outcome (List Datum)
  | [] => .ok []
  | n :: ns => Outcome.both List.cons (construct depth n) (constructAll depth ns)

/-- The items of an ordered mapping as pairs. -/
def constructPairs (depth : Nat) : List Node → Outcome (List Datum)
  | [] => .ok []
  | .mapping _ [(k, v)] :: ns =>
    Outcome.both List.cons
      (Outcome.both (fun k v => .tuple [k, v]) (construct depth k) (construct depth v))
      (constructPairs depth ns)
  | _ :: _ => .error (depth, treeFault .wrongNodeKind)

/-- The entries of a mapping; a collection is no key. -/
def constructEntries (depth : Nat) : List (Node × Node) → Outcome (List (Datum × Datum))
  | [] => .ok []
  | (k, v) :: rest =>
    let key := match construct depth k with
      | .ok key => if key.isKey then .ok key else .error (depth, treeFault .unhashableKey)
      | .error e =>
        -- A collection is refused as a key before its contents are looked at.
        if depth < e.1 then .error (depth, treeFault .unhashableKey) else .error e
    Outcome.both List.cons (Outcome.both Prod.mk key (construct depth v))
      (constructEntries depth rest)
end

/-- The value that a YAML text denotes; a text without a document denotes null. -/
def parse (text : String) : Except Fault Datum := do
  match ← Node.parse text with
  | none => return .null
  | some node => (construct 0 (expand node)).mapError Prod.snd

end Yaml
end Groundplan
