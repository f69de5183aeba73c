import Groundplan.Json.Reader
import Groundplan.Datum.Display
import Groundplan.Number.Reading

/-!
What the cloud's command line says about the services of a cluster.  Its answers are JSON
documents; one that has not the expected shape is a fault, and which one depends on the
first step that finds nothing to work on.
-/

namespace Groundplan
namespace Rollout

/-- The first step that an answer of another shape does not allow. -/
inductive AnswerFault
  /-- A value without members was asked for one. -/
  | member (typeName operation : String)
  /-- A single value stands for a list. -/
  | items (typeName : String)
  /-- A single value was asked for its first item. -/
  | index (typeName : String)
  /-- A mapping was asked for its first item. -/
  | firstKey
  /-- A collection or nothing stands for a number. -/
  | number (typeName : String)
  /-- A text stands for a number that it does not spell. -/
  | digits (s : String)
  /-- An integer has more digits than are converted. -/
  | excess (count : Nat)
  | notANumber
  | infinite
  deriving DecidableEq

def AnswerFault.message : AnswerFault → String
  | .member typeName operation => s!"'{typeName}' object has no attribute '{operation}'"
  | .items typeName => s!"'{typeName}' object is not iterable"
  | .index typeName => s!"'{typeName}' object is not subscriptable"
  | .firstKey => "0"
  | .number typeName =>
    s!"int() argument must be a string, a bytes-like object or a real number, not '{typeName}'"
  | .digits s => Number.literalMessage 10 s
  | .excess count => Number.excessMessage count
  | .notANumber => "cannot convert float NaN to integer"
  | .infinite => "cannot convert float infinity to integer"

namespace Answer

/-- A member of a mapping, or the given value if it is absent. -/
def member (name : String) (default : Datum) : Datum → Except AnswerFault Datum
  | .mapping entries =>
    .ok (((entries.find? fun e => Datum.sameKey e.1 (.text name)).map Prod.snd).getD default)
  | d => .error (.member d.typeName "get")

/-- The items of a value: a text has its characters and a mapping its keys.  A document has
no other collections. -/
def items : Datum → Except AnswerFault (List Datum)
  | .list xs => .ok xs
  | .text s => .ok (s.toList.map fun c => .text (String.singleton c))
  | .mapping entries => .ok (entries.map Prod.fst)
  | d => .error (.items d.typeName)

/-- The first item of a value that is not nothing. -/
def first : Datum → Except AnswerFault Datum
  | .list (x :: _) => .ok x
  | .text s => .ok (.text (String.ofList (s.toList.take 1)))
  | .mapping _ => .error .firstKey
  | d => .error (.index d.typeName)

/-- An integer, or what can be taken for one: a text that spells it, and a number whose
fraction is dropped. -/
def integer : Datum → Except AnswerFault Int
  | .bool b => .ok (if b then 1 else 0)
  | .int n => .ok n
  | .float .nan => .error .notANumber
  | .float x =>
    match x.truncate? with
    | some n => .ok n
    | none => .error .infinite
  | .text s =>
    match Number.excessDigits? s with
    | some count => .error (.excess count)
    | none =>
      match Number.parseInt? 10 s with
      | some n => .ok n
      | none => .error (.digits s)
  | d => .error (.number d.typeName)

end Answer

/-- The number of running tasks of the first service in an answer, if it is a document at
all.  No service and an inactive one run none. -/
def runningCount (output : String) : Except AnswerFault (Option Int) :=
  match Json.parse output with
  | .error (.malformed _) => .ok none
  | .error (.digits count) => .error (.excess count)
  | .ok document => do
    let services ← Answer.member "services" (.list []) document
    if services.isNothing then return some 0
    let service ← Answer.first services
    let status ← Answer.member "status" .null service
    if Datum.sameKey status (.text "INACTIVE") then return some 0
    let count ← Answer.member "runningCount" (.int 0) service
    return some (← Answer.integer count)

/-- The identifiers of the services in an answer, or nothing if it is no document. -/
def serviceIds (output : String) : Except AnswerFault (Option (List Datum)) :=
  match Json.parse output with
  | .error (.malformed _) => .ok none
  | .error (.digits count) => .error (.excess count)
  | .ok document => do
    let ids ← Answer.member "serviceArns" (.list []) document
    return some (← Answer.items ids)

/-- The name of a service: what follows the last slash of its identifier. -/
def serviceName : Datum → Except AnswerFault String
  | .text s => .ok (String.ofList ((s.toList.reverse.takeWhile (· ≠ '/')).reverse))
  | d => .error (.member d.typeName "rsplit")

end Rollout
end Groundplan
