import Groundplan.Module.Basic

/-!
Function workloads: code that runs on demand in the private subnets.
-/

namespace Groundplan
namespace Module
namespace Function

open Hcl

def defaultMemory : Value := .int 128

def extraVariables : List Variable :=
  [{ name := "runtime", description := "The function runtime", type := "string",
     default := some (.text "nodejs16.x") },
    { name := "handler", description := "The function handler", type := "string",
      default := some (.text "index.handler") },
    { name := "memory", description := "The amount of memory to allocate", type := "number",
      default := some defaultMemory },
    { name := "environment_variables", description := "Environment variables for the function",
      type := "map(string)", default := some (.object []) }]

def bind (w : Workload) : Binding :=
  .required "runtime" "runtime" w.runtime ++
  .required "handler" "handler" w.handler ++
  .optional "memory" (w.resources.memory.map Value.ofQuantity) defaultMemory ++
  .always "environment_variables" (Value.ofEntries w.environment)

def function : Item :=
  resource "aws_lambda_function" "this"
    [set "function_name" (nameEnv ""),
      set "role" (ref "aws_iam_role.lambda_execution.arn"),
      set "runtime" (ref "var.runtime"),
      set "handler" (ref "var.handler"),
      set "memory_size" (ref "var.memory"),
      set "timeout" (.int 30),
      .comment "Placeholder artifact: package and upload the function code separately",
      set "filename" (.text "function.zip"),
      nested "vpc_config"
        [set "subnet_ids" (ref "var.subnets"),
          set "security_group_ids" (.list [ref "aws_security_group.this.id"])],
      nested "environment" [set "variables" (ref "var.environment_variables")],
      tags]

def securityGroup : Item :=
  resource "aws_security_group" "this"
    [set "name" (nameEnv ""),
      set "description" (.template ("Security group for " ++ slot "var.name" ++ " function")),
      set "vpc_id" (ref "var.vpc_id"),
      allowAllEgress,
      tags]

def role : Item :=
  resource "aws_iam_role" "lambda_execution"
    [set "name" (nameEnv "-lambda-execution"),
      set "assume_role_policy" (assumeRolePolicy "lambda.amazonaws.com"),
      tags]

def policyAttachment (label arn : String) : Item :=
  resource "aws_iam_role_policy_attachment" label
    [set "role" (ref "aws_iam_role.lambda_execution.name"), set "policy_arn" (.text arn)]

def resources : Document :=
  ⟨[function, securityGroup, role,
    policyAttachment "lambda_execution"
      "arn:aws:iam::aws:policy/service-role/AWSLambdaBasicExecutionRole",
    policyAttachment "lambda_vpc"
      "arn:aws:iam::aws:policy/service-role/AWSLambdaVPCAccessExecutionRole"]⟩

def outputs : List Output :=
  [⟨"function_arn", "The Lambda function ARN", ref "aws_lambda_function.this.arn"⟩,
    ⟨"function_name", "The Lambda function name", ref "aws_lambda_function.this.function_name"⟩,
    ⟨"invoke_arn", "The Lambda invoke ARN", ref "aws_lambda_function.this.invoke_arn"⟩]

end Function

def function : Template where
  typeName := "function"
  noun := "function"
  extraVariables := Function.extraVariables
  bind := Function.bind
  resources := fun _ => Function.resources
  outputs := Function.outputs

end Module
end Groundplan
