import Groundplan.Module.Basic

/-!
The template for types that have none of their own.  Its only resource does nothing when
it runs, so that every type yields a valid module.
-/

namespace Groundplan
namespace Module
namespace Generic

open Hcl

def stackTemplate : Value :=
  .object
    [("Resources", .object
      [("GenericResource", .object
        [("Type", .text "AWS::CloudFormation::WaitConditionHandle"),
          ("Properties", .object [])])]),
      ("Outputs", .object
        [("ResourceId", .object
          [("Value", .object [("Ref", .text "GenericResource")])])])]

def resources : Document :=
  ⟨[.comment "Stand-in resource; replace with real infrastructure for this workload type",
    resource "aws_cloudformation_stack" "this"
      [set "name" (nameEnv ""), set "template_body" (jsonencode stackTemplate), tags]]⟩

def outputs : List Output :=
  [⟨"resource_id", "The generic resource ID",
    ref "aws_cloudformation_stack.this.outputs[\"ResourceId\"]"⟩]

end Generic

def generic : Template where
  typeName := "generic"
  resources := fun _ => Generic.resources
  outputs := Generic.outputs

end Module
end Groundplan
