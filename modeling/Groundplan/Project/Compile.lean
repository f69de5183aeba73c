import Groundplan.Project.Basic
import Groundplan.Text.Identifier

/-!
Compiling a specification.  The root module holds the network, one module block for each
workload and one output for each; the child modules come from the templates of the
workload types.
-/

namespace Groundplan
namespace Project

open Hcl

structure Options where
  /-- Refuses workloads that lack a required field. -/
  strict : Bool := false
  credentials : Credentials := .managed
  deriving DecidableEq, Inhabited

/-! ## Documents -/

/-- Every file starts with a comment that names the project. -/
def banner (project : String) : Item :=
  .comment ("Generated by scoreform from SCORE project " ++ Text.quoted project ++ ".\n" ++
    "Re-running scoreform overwrites this file; manual edits will be lost.")

def withBanner (project : String) (d : Document) : Document :=
  ⟨banner project :: .blank :: d.items⟩

def providerVersion : String := "~> 5.79.0"

def providerDocument (m : Metadata) : Document :=
  ⟨[.block "provider" [m.provider] [set "region" (.text m.region)],
    nested "terraform"
      [nested "required_providers"
        [set m.provider (.object
          [("source", .text ("hashicorp/" ++ m.provider)), ("version", .text providerVersion)])]]]⟩

def rootVariable (name description value : String) : Item :=
  .block "variable" [name]
    [set "description" (.text description), set "default" (.text value)]

def inputsDocument (m : Metadata) : Document :=
  ⟨[rootVariable "environment" "Deployment environment" m.environment,
    rootVariable "project_name" "Project name" m.name,
    rootVariable "region" "Deployment region" m.region,
    nested "locals" [set "common_tags" (Value.ofEntries m.tags)]]⟩

def commonTags : Item := set "tags" (ref "local.common_tags")

/-- The module of the shared network. -/
def networkModule (cidr : String) (s : Network.Subnets) : Item :=
  let texts (rs : List Network.Range) : Value := .list (rs.map fun r => .text r.toText)
  .block "module" ["vpc"]
    [set "source" (.text "terraform-aws-modules/vpc/aws"),
      .blank,
      set "name" (.template (slot "var.project_name" ++ "-" ++ slot "var.environment")),
      set "cidr" (.text cidr),
      .blank,
      set "azs" (.list (["a", "b", "c"].map fun zone => .template (slot "var.region" ++ zone))),
      set "private_subnets" (texts s.privateRanges),
      set "public_subnets" (texts s.publicRanges),
      .blank,
      set "enable_nat_gateway" (.bool true),
      set "single_nat_gateway" (.bool true),
      .blank,
      commonTags]

/-- The attributes that every workload passes to its module. -/
def commonAttributes (name : String) : List Attribute :=
  [⟨"name", .text name⟩,
    ⟨"environment", ref "var.environment"⟩,
    ⟨"vpc_id", ref "module.vpc.vpc_id"⟩,
    ⟨"subnets", ref "module.vpc.private_subnets"⟩,
    ⟨"public_subnets", ref "module.vpc.public_subnets"⟩]

def workloadModule (name type : String) (b : Module.Binding) : Item :=
  .block "module" [name]
    ([set "source" (.text ("./modules/" ++ type)), .blank] ++
      (commonAttributes name).map Attribute.toItem ++
      (if b.attributes.isEmpty then [] else .blank :: b.attributes.map Attribute.toItem) ++
      [.blank, commonTags])

/-- A workload with what is bound for it. -/
structure Bound where
  name : String
  workload : Workload
  binding : Module.Binding

def Bound.items (b : Bound) : List Item :=
  [.comment ("Workload: " ++ b.name ++ " (" ++ b.workload.type ++ ")"),
    workloadModule b.name b.workload.type b.binding]

def outputBlock (name value : String) : Item := .block "output" [name] [set "value" (ref value)]

def mainDocument (cidr : String) (s : Network.Subnets) (bound : List Bound) : Document :=
  ⟨[.comment "Shared networking", networkModule cidr s] ++
    bound.flatMap Bound.items ++
    [.comment "Outputs", outputBlock "vpc_id" "module.vpc.vpc_id"] ++
    bound.map fun b => outputBlock (b.name ++ "_details") ("module." ++ b.name)⟩

/-! ## Stages -/

def defaultCidr : String := "10.0.0.0/16"

/-- The address range of the network; an empty one counts as absent. -/
def cidrOf (spec : Spec) : String :=
  match spec.networkingCidr with
  | some c => if c.isEmpty then defaultCidr else c
  | none => defaultCidr

/-- What has to hold before any workload is looked at. -/
def check (spec : Spec) : Except Fault Network.Subnets := do
  if !Text.isProviderName spec.metadata.provider then throw (.provider spec.metadata.provider)
  if (spec.workloads.lookup "vpc").isSome then throw .reservedWorkload
  (Network.Subnets.ofCidr (cidrOf spec)).mapError (.network spec.metadata.name)

def bindAll (l : Module.Library) (spec : Spec) : List Bound :=
  spec.workloads.map fun (name, w) => ⟨name, w, (l.template w.type).bind w⟩

def missingFields (bound : List Bound) : List (String × String) :=
  bound.flatMap fun b => b.binding.missing.map fun f => (b.name, f)

def ignoredFields (spec : Spec) : List (String × List String) :=
  (spec.workloads.map fun (name, w) => (name, w.unconsumedFields)).filter fun e => !e.2.isEmpty

/-- What is said about a workload when it is bound. -/
def Bound.records (l : Module.Library) (b : Bound) : List LogRecord :=
  let ignored := b.workload.unconsumedFields
  l.lookupRecords b.workload.type ++
    b.binding.missing.map (fun f => .warning
      ("Workload " ++ Text.quoted b.name ++ " has no " ++ Text.quoted f ++ "; rendering it as " ++
        Text.quoted Module.undefined)) ++
    (if ignored.isEmpty then [] else [.info
      ("Workload " ++ Text.quoted b.name ++ ": fields not applied by the " ++ b.workload.type ++
        " module: " ++ ", ".intercalate ignored)])

/-- What is said while workloads are bound in front of the first whose template has no
instance, and the reason for that. -/
def flaw? (l : Module.Library) : List Bound → Option (List LogRecord × Module.LookupFault)
  | [] => none
  | b :: rest =>
    match (l.template b.workload.type).made with
    | .error fault => some (l.lookupRecords b.workload.type, fault)
    | .ok _ => (flaw? l rest).map fun (said, fault) => (b.records l ++ said, fault)

def render (project : String) (d : Document) : Except Fault String :=
  (withBanner project d).render.mapError (.render project)

/-- The files of the child module for one type. -/
def moduleFiles (project : String) (t : Module.Template) (typeName : String)
    (credentials : Credentials) : Except Fault ModuleFiles := do
  let inputs ← render project t.inputsDocument
  let main ← render project (t.resources credentials)
  let outputs ← render project t.outputsDocument
  return { typeName, template := t.typeName, inputs, main, outputs }

/-- Warnings that were not given before. -/
def newWarnings (given : List String) : List String → List String
  | [] => []
  | w :: ws => if given.contains w then newWarnings given ws else w :: newWarnings (given ++ [w]) ws

/-- The child modules of the given types with the warnings of their templates.  What is
said on the way is kept when a module cannot be rendered. -/
def compileModules (l : Module.Library) (project : String) (credentials : Credentials)
    (given : List String) :
    List String → List LogRecord × Except Fault (List ModuleFiles × List String)
  | [] => ([], .ok ([], given))
  | typeName :: rest =>
    let t := l.template typeName
    let fresh := newWarnings given (t.warnings credentials)
    let records := l.lookupRecords typeName ++ fresh.map .warning
    match moduleFiles project t typeName credentials with
    | .error e => (records, .error e)
    | .ok m =>
      let (more, result) := compileModules l project credentials (given ++ fresh) rest
      (records ++ more, result.map fun (ms, warnings) => (m :: ms, warnings))

def rootFiles (spec : Spec) (s : Network.Subnets) (bound : List Bound) : Except Fault RootFiles := do
  let name := spec.metadata.name
  let provider ← render name (providerDocument spec.metadata)
  let inputs ← render name (inputsDocument spec.metadata)
  let main ← render name (mainDocument (cidrOf spec) s bound)
  return { provider, inputs, main }

/-- The outcome of compiling: the library after the look-ups, what was said, and the
project or the reason why there is none. -/
structure Compilation where
  library : Module.Library
  records : List LogRecord
  result : Except Fault Project

/-- Compiles with a library whose plugins are settled. -/
def compileBound (l : Module.Library) (spec : Spec) (options : Options) (s : Network.Subnets) :
    List LogRecord × Except Fault Project :=
  let bound := bindAll l spec
  match flaw? l bound with
  | some (said, fault) => (said, .error (.lookup spec.metadata.name fault))
  | none =>
    let missing := missingFields bound
    let said := bound.flatMap (Bound.records l)
    if options.strict && !missing.isEmpty then (said, .error (.missing missing))
    else
      let (more, modules) :=
        compileModules l spec.metadata.name options.credentials [] spec.workloadTypes
      (said ++ more, do
        let (modules, warnings) ← modules
        let root ← rootFiles spec s bound
        return {
          name := spec.metadata.name, root, modules
          workloads := spec.workloads.map fun (name, w) => (name, w.type)
          report := { missing, ignored := ignoredFields spec, warnings } })

/-- Compiles a specification.  Plugins are looked for when the first workload is. -/
def compile (l : Module.Library) (spec : Spec) (options : Options) : Compilation :=
  match check spec with
  | .error e => ⟨l, [], .error e⟩
  | .ok s =>
    let found : Module.Search :=
      if spec.workloads.isEmpty then { library := l, records := [] } else l.search
    match found.stopped with
    | some fault => ⟨found.library, found.records, .error (.lookup spec.metadata.name (.nameless fault))⟩
    | none =>
      let (said, result) := compileBound found.library spec options s
      ⟨found.library, found.records ++ said, result⟩

end Project
end Groundplan
