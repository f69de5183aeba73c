import Groundplan.Hcl.Document
import Groundplan.Spec.Basic

/-!
Module templates.  Each workload type is turned into a child module of three files by a
template, which also says what the root module passes to it for one workload.
-/

namespace Groundplan

/-- Where the master password of a database comes from. -/
inductive Credentials
  | managed
  | placeholder
  deriving DecidableEq, Inhabited

namespace Hcl

/-- An interpolation inside a template literal. -/
def slot (expression : String) : String := "$\x7b" ++ expression ++ "\x7d"

def Value.ofQuantity : Quantity → Value
  | .whole n => .int n
  | .real x => .float x

/-- An attribute of a body. -/
def set (name : String) (value : Value) : Item := .attribute name value

def resource (type label : String) (body : List Item) : Item :=
  .block "resource" [type, label] body

def nested (type : String) (body : List Item) : Item := .block type [] body

def ref (name : String) : Value := .expr name

end Hcl

namespace Module

open Hcl

/-- An input of a child module.  One without a default must be passed. -/
structure Variable where
  name : String
  description : String
  type : String
  default : Option Value := none
  deriving Inhabited

def Variable.toItem (v : Variable) : Item :=
  .block "variable" [v.name]
    ([set "description" (.text v.description), set "type" (.expr v.type)] ++
      v.default.toList.map (set "default"))

/-- A result of a child module. -/
structure Output where
  name : String
  description : String
  value : Value
  deriving Inhabited

def Output.toItem (o : Output) : Item :=
  .block "output" [o.name] [set "description" (.text o.description), set "value" o.value]

/-- What the root module passes to a child module for one workload, and the required
fields that the workload lacks. -/
structure Binding where
  attributes : List Attribute := []
  missing : List String := []
  deriving Inhabited

/-- The stand-in for a required field that is absent. -/
def undefined : String := "undefined"

namespace Binding

instance : Append Binding where
  append a b := ⟨a.attributes ++ b.attributes, a.missing ++ b.missing⟩

/-- A field that the workload must have; `source` is its name in the specification. -/
def required (name source : String) (value : Option String) : Binding :=
  match value with
  | some v => { attributes := [⟨name, .text v⟩] }
  | none => { attributes := [⟨name, .text undefined⟩], missing := [source] }

/-- A field with a default. -/
def optional (name : String) (value : Option Value) (default : Value) : Binding :=
  { attributes := [⟨name, value.getD default⟩] }

def always (name : String) (value : Value) : Binding := { attributes := [⟨name, value⟩] }

end Binding

/-- How the workloads of one type become infrastructure. -/
structure Template where
  typeName : String
  /-- What the workload is called in descriptions. -/
  noun : String := "resource"
  extraVariables : List Variable := []
  bind : Workload → Binding := fun _ => {}
  resources : Credentials → Document
  outputs : List Output := []
  warnings : Credentials → List String := fun _ => []
  /-- The reason why the class of the template has no instances, if there is one. -/
  flaw : Option String := none
  deriving Inhabited

/-- The inputs that every child module has. -/
def commonVariables (noun : String) : List Variable :=
  [{ name := "name", description := "The name of the " ++ noun, type := "string" },
    { name := "environment", description := "The deployment environment", type := "string" },
    { name := "vpc_id", description := "The VPC ID", type := "string" },
    { name := "subnets", description := "The subnet IDs to deploy to", type := "list(string)" },
    { name := "public_subnets", description := "The public subnet IDs", type := "list(string)",
      default := some (.list []) }]

def tagsVariable : Variable :=
  { name := "tags", description := "Resource tags", type := "map(string)"
    default := some (.object []) }

namespace Template

/-- All inputs of the child module. -/
def inputs (t : Template) : List Variable :=
  commonVariables t.noun ++ t.extraVariables ++ [tagsVariable]

def inputsDocument (t : Template) : Document := ⟨t.inputs.map Variable.toItem⟩

def outputsDocument (t : Template) : Document := ⟨t.outputs.map Output.toItem⟩

end Template

/-! ## Parts that several templates share -/

/-- The name of a resource: workload, environment and a suffix. -/
def nameEnv (suffix : String) : Value :=
  .template (slot "var.name" ++ "-" ++ slot "var.environment" ++ suffix)

def tags : Item := set "tags" (ref "var.tags")

def jsonencode (v : Value) : Value := .call "jsonencode" [v]

/-- The policy that lets a service take a role. -/
def assumeRolePolicy (service : String) : Value :=
  jsonencode (.object
    [("Version", .text "2012-10-17"),
      ("Statement", .list [.object
        [("Action", .text "sts:AssumeRole"),
          ("Effect", .text "Allow"),
          ("Principal", .object [("Service", .text service)])]])])

/-- A rule of a security group. -/
def rule (direction : String) (fromPort toPort : Value) (protocol : String) (source : Item) : Item :=
  nested direction
    [set "from_port" fromPort, set "to_port" toPort, set "protocol" (.text protocol), source]

def cidrBlocks (cidr : String) : Item := set "cidr_blocks" (.list [.text cidr])

def allowAllEgress : Item := rule "egress" (.int 0) (.int 0) "-1" (cidrBlocks "0.0.0.0/0")

end Module
end Groundplan
