import Groundplan.Spec.Coercion
import Groundplan.Text.Identifier

/-!
Decoding a document value as a specification.  In every part of it a key without a value
means the same as no key.  A field may have two names, of which the first wins.
-/

namespace Groundplan

/-- The entries of a part of the specification that have a value. -/
def presentEntries (entries : List (Datum × Datum)) : List (Datum × Datum) :=
  entries.filter fun (_, v) => !v.isNull

/-- The value of a textual key. -/
def valueOf? (name : String) : List (Datum × Datum) → Option Datum
  | [] => none
  | (k, v) :: rest =>
    match k with
    | .text s => if s = name then some v else valueOf? name rest
    | _ => valueOf? name rest

/-- The first of the names that is present, with its value. -/
def lookupField (names : List String) (entries : List (Datum × Datum)) :
    Option (String × Datum) :=
  names.findSome? fun name => (valueOf? name entries).map fun v => (name, v)

/-- A field with a default. -/
def fieldOr {α : Type} (default : α) (names : List String) (decode : Datum → Checked α)
    (entries : List (Datum × Datum)) : Checked α :=
  match lookupField names entries with
  | none => .ok default
  | some (name, v) => (decode v).within name

/-- A field that may be absent. -/
def optionalField {α : Type} (names : List String) (decode : Datum → Checked α)
    (entries : List (Datum × Datum)) : Checked (Option α) :=
  fieldOr none names (fun v => some <$> decode v) entries

/-- The entries that no field took.  Their keys have to be texts. -/
def unknownEntries (fields : List (List String)) (entries : List (Datum × Datum)) : Checked Entries :=
  go entries
where
  taken : List String := fields.filterMap fun names => (lookupField names entries).map Prod.fst
  go : List (Datum × Datum) → Checked Entries
    | [] => .ok []
    | (.text s, v) :: rest =>
      if taken.contains s then go rest else (fun more => (s, v) :: more) <$> go rest
    | (k, _) :: rest =>
      (fun _ more => more) <$> (Checked.refuse (α := Unit) .keyText).within (Violation.keyPlace k)
        <*> go rest

/-- A part of the specification, which is a mapping. -/
def decodePart {α : Type} (name : String) (decode : List (Datum × Datum) → Checked α) :
    Datum → Checked α
  | .mapping entries => decode (presentEntries entries)
  | _ => .refuse (.model name)

open Coercion

def Metadata.decode : Datum → Checked Metadata :=
  decodePart "Metadata" fun es =>
    Metadata.mk
      <$> fieldOr "score-app" ["name"] text es
      <*> fieldOr "dev" ["environment"] text es
      <*> fieldOr "aws" ["provider"] text es
      <*> fieldOr "us-west-2" ["region"] text es
      <*> fieldOr [] ["tags"] entries es
      <*> unknownEntries [["name"], ["environment"], ["provider"], ["region"], ["tags"]] es

def Port.decode : Datum → Checked Port :=
  decodePart "Port" fun es =>
    Port.mk
      <$> optionalField ["port"] integer es
      <*> optionalField ["protocol"] text es
      <*> unknownEntries [["port"], ["protocol"]] es

def WorkloadResources.decode : Datum → Checked WorkloadResources :=
  decodePart "WorkloadResources" fun es =>
    WorkloadResources.mk
      <$> optionalField ["cpu"] quantity es
      <*> optionalField ["memory"] quantity es
      <*> optionalField ["instance"] text es
      <*> optionalField ["storage"] integer es
      <*> unknownEntries [["cpu"], ["memory"], ["instance"], ["storage"]] es

def Backup.decode : Datum → Checked Backup :=
  decodePart "Backup" fun es =>
    Backup.mk <$> optionalField ["retention"] integer es <*> unknownEntries [["retention"]] es

/-- A type names a directory. -/
def workloadType (d : Datum) : Checked String :=
  (text d).andThen fun t =>
    if Text.isWorkloadName t then .ok t
    else .refuse (.refused
      ("Workload type " ++ Text.quoted t ++ " cannot be used as a module directory name"))

def Workload.fieldNames : List (List String) :=
  [["type"], ["image"], ["runtime"], ["handler"], ["engine"], ["version"], ["resources"],
    ["ports"], ["replicas"], ["environment"], ["backup"], ["healthCheck", "health_check"],
    ["scaling"], ["volumes"], ["dependsOn", "depends_on"], ["sideCar", "side_car"], ["labels"]]

def Workload.decode : Datum → Checked Workload :=
  decodePart "Workload" fun es =>
    Workload.mk
      <$> fieldOr "container" ["type"] workloadType es
      <*> optionalField ["image"] text es
      <*> optionalField ["runtime"] text es
      <*> optionalField ["handler"] text es
      <*> optionalField ["engine"] text es
      <*> optionalField ["version"] text es
      <*> fieldOr {} ["resources"] WorkloadResources.decode es
      <*> fieldOr [] ["ports"] (list Port.decode) es
      <*> optionalField ["replicas"] integer es
      <*> fieldOr [] ["environment"] entries es
      <*> optionalField ["backup"] Backup.decode es
      <*> optionalField ["healthCheck", "health_check"] entries es
      <*> optionalField ["scaling"] entries es
      <*> fieldOr [] ["volumes"] (list entries) es
      <*> fieldOr [] ["dependsOn", "depends_on"] (list text) es
      <*> optionalField ["sideCar", "side_car"] truth es
      <*> fieldOr [] ["labels"] entries es
      <*> unknownEntries Workload.fieldNames es

def Networking.decode : Datum → Checked Networking :=
  decodePart "Networking" fun es =>
    Networking.mk
      <$> optionalField ["type"] text es
      <*> optionalField ["cidr"] text es
      <*> fieldOr [] ["subnets"] entries es
      <*> unknownEntries [["type"], ["cidr"], ["subnets"]] es

def SharedResources.decode : Datum → Checked SharedResources :=
  decodePart "Resources" fun es =>
    SharedResources.mk
      <$> optionalField ["networking"] Networking.decode es
      <*> unknownEntries [["networking"]] es

/-- A name is the label of a module.  The first that cannot be one is reported. -/
def checkWorkloadNames (ws : List (String × Workload)) : Checked (List (String × Workload)) :=
  match ws.find? fun w => !Text.isWorkloadName w.1 with
  | none => .ok ws
  | some w => .refuse (.refused
      ("Workload name " ++ Text.quoted w.1 ++
        " is not a valid module name (must match [a-zA-Z_][a-zA-Z0-9_-]*)"))

def decodeWorkloads (d : Datum) : Checked (List (String × Workload)) :=
  (dictionary Workload.decode d).andThen checkWorkloadNames

def Spec.decode : Datum → Checked Spec :=
  decodePart "ScoreSpec" fun es =>
    Spec.mk
      <$> optionalField ["apiVersion", "api_version"] text es
      <*> fieldOr {} ["metadata"] Metadata.decode es
      <*> fieldOr [] ["workloads"] decodeWorkloads es
      <*> fieldOr {} ["resources"] SharedResources.decode es
      <*> unknownEntries [["apiVersion", "api_version"], ["metadata"], ["workloads"], ["resources"]] es

end Groundplan
