import Groundplan.Module.Basic

/-!
Container workloads: a managed service behind a public load balancer.
-/

namespace Groundplan
namespace Module
namespace Container

open Hcl

def defaultCpu : Value := .int 256
def defaultMemory : Value := .int 512
def defaultPort : Value := .int 80
def defaultReplicas : Value := .int 1

def extraVariables : List Variable :=
  [{ name := "image", description := "The container image to deploy", type := "string" },
    { name := "cpu", description := "The number of CPU units to allocate", type := "number",
      default := some defaultCpu },
    { name := "memory", description := "The amount of memory to allocate", type := "number",
      default := some defaultMemory },
    { name := "port", description := "The container port", type := "number",
      default := some defaultPort },
    { name := "replicas", description := "The number of container replicas", type := "number",
      default := some defaultReplicas },
    { name := "environment_variables", description := "Environment variables for the container",
      type := "map(string)", default := some (.object []) },
    { name := "health_check_path", description := "Path for health checks", type := "string",
      default := some (.text "/") }]

def bind (w : Workload) : Binding :=
  .required "image" "image" w.image ++
  .optional "cpu" (w.resources.cpu.map Value.ofQuantity) defaultCpu ++
  .optional "memory" (w.resources.memory.map Value.ofQuantity) defaultMemory ++
  .optional "port" (w.firstPort.map Value.int) defaultPort ++
  .optional "replicas" (w.replicas.map Value.int) defaultReplicas ++
  .always "environment_variables" (Value.ofEntries w.environment)

def logGroupName : Value :=
  .template ("/ecs/" ++ slot "var.name" ++ "-" ++ slot "var.environment")

def definition : Value :=
  .object
    [("name", ref "var.name"),
      ("image", ref "var.image"),
      ("essential", .bool true),
      ("portMappings", .list
        [.object [("containerPort", ref "var.port"), ("hostPort", ref "var.port")]]),
      ("environment", .expr
        ("[for key, value in var.environment_variables : \x7b name = key, value = value \x7d]")),
      ("logConfiguration", .object
        [("logDriver", .text "awslogs"),
          ("options", .object
            [("awslogs-group", logGroupName),
              ("awslogs-region", ref "data.aws_region.current.name"),
              ("awslogs-stream-prefix", .text "ecs")])]),
      ("healthCheck", .object
        [("command", .list
          [.text "CMD-SHELL",
            .template ("curl -f http://localhost:" ++ slot "var.port" ++
              slot "var.health_check_path" ++ " || exit 1")]),
          ("interval", .int 30),
          ("timeout", .int 5),
          ("retries", .int 3),
          ("startPeriod", .int 60)])]

def cluster : Item := resource "aws_ecs_cluster" "this" [set "name" (nameEnv ""), tags]

def task : Item :=
  resource "aws_ecs_task_definition" "this"
    [set "family" (nameEnv ""),
      set "network_mode" (.text "awsvpc"),
      set "requires_compatibilities" (.list [.text "FARGATE"]),
      set "cpu" (ref "var.cpu"),
      set "memory" (ref "var.memory"),
      set "execution_role_arn" (ref "aws_iam_role.ecs_execution.arn"),
      set "task_role_arn" (ref "aws_iam_role.ecs_task.arn"),
      set "container_definitions" (jsonencode (.list [definition])),
      tags]

def service : Item :=
  resource "aws_ecs_service" "this"
    [set "name" (nameEnv ""),
      set "cluster" (ref "aws_ecs_cluster.this.id"),
      set "task_definition" (ref "aws_ecs_task_definition.this.arn"),
      set "desired_count" (ref "var.replicas"),
      set "launch_type" (.text "FARGATE"),
      nested "network_configuration"
        [set "subnets" (ref "var.subnets"),
          set "security_groups" (.list [ref "aws_security_group.this.id"]),
          set "assign_public_ip" (.bool true)],
      nested "load_balancer"
        [set "target_group_arn" (ref "aws_lb_target_group.this.arn"),
          set "container_name" (ref "var.name"),
          set "container_port" (ref "var.port")],
      set "depends_on" (.list
        [ref "aws_lb_listener.this",
          ref "aws_iam_role_policy_attachment.ecs_execution",
          ref "aws_iam_role_policy_attachment.registry_pull"]),
      tags]

def loadBalancer : Item :=
  resource "aws_lb" "this"
    [set "name" (nameEnv ""),
      set "internal" (.bool false),
      set "load_balancer_type" (.text "application"),
      set "security_groups" (.list [ref "aws_security_group.alb.id"]),
      set "subnets" (ref "var.public_subnets"),
      set "enable_deletion_protection" (.bool false),
      tags]

def targetGroup : Item :=
  resource "aws_lb_target_group" "this"
    [set "name" (nameEnv "-tg"),
      set "port" (ref "var.port"),
      set "protocol" (.text "HTTP"),
      set "vpc_id" (ref "var.vpc_id"),
      set "target_type" (.text "ip"),
      nested "health_check"
        [set "enabled" (.bool true),
          set "path" (ref "var.health_check_path"),
          set "port" (.text "traffic-port"),
          set "healthy_threshold" (.int 3),
          set "unhealthy_threshold" (.int 3),
          set "timeout" (.int 5),
          set "interval" (.int 30),
          set "matcher" (.text "200-299")],
      tags]

def listener : Item :=
  resource "aws_lb_listener" "this"
    [set "load_balancer_arn" (ref "aws_lb.this.arn"),
      set "port" (.int 80),
      set "protocol" (.text "HTTP"),
      nested "default_action"
        [set "type" (.text "forward"),
          set "target_group_arn" (ref "aws_lb_target_group.this.arn")],
      tags]

def serviceSecurityGroup : Item :=
  resource "aws_security_group" "this"
    [set "name" (nameEnv "-ecs"),
      set "description" (.template ("Security group for " ++ slot "var.name" ++ " container")),
      set "vpc_id" (ref "var.vpc_id"),
      rule "ingress" (ref "var.port") (ref "var.port") "tcp"
        (set "security_groups" (.list [ref "aws_security_group.alb.id"])),
      allowAllEgress,
      tags]

def balancerSecurityGroup : Item :=
  resource "aws_security_group" "alb"
    [set "name" (nameEnv "-alb"),
      set "description" (.template ("Security group for " ++ slot "var.name" ++ " load balancer")),
      set "vpc_id" (ref "var.vpc_id"),
      rule "ingress" (.int 80) (.int 80) "tcp" (cidrBlocks "0.0.0.0/0"),
      allowAllEgress,
      tags]

def role (label suffix : String) : Item :=
  resource "aws_iam_role" label
    [set "name" (nameEnv suffix),
      set "assume_role_policy" (assumeRolePolicy "ecs-tasks.amazonaws.com"),
      tags]

def policyAttachment (label : String) (policy : Value) : Item :=
  resource "aws_iam_role_policy_attachment" label
    [set "role" (ref "aws_iam_role.ecs_execution.name"), set "policy_arn" policy]

def statement (actions : List String) : Value :=
  .object
    [("Effect", .text "Allow"),
      ("Action", .list (actions.map Value.text)),
      ("Resource", .text "*")]

def pullPolicy : Item :=
  resource "aws_iam_policy" "registry_pull"
    [set "name" (nameEnv "-registry-pull"),
      set "description" (.text "Allow pulling container images and writing logs"),
      set "policy" (jsonencode (.object
        [("Version", .text "2012-10-17"),
          ("Statement", .list
            [statement
              ["ecr:GetAuthorizationToken", "ecr:BatchCheckLayerAvailability",
                "ecr:GetDownloadUrlForLayer", "ecr:BatchGetImage"],
              statement ["logs:CreateLogStream", "logs:PutLogEvents"]])])),
      tags]

def logGroup : Item :=
  resource "aws_cloudwatch_log_group" "this"
    [set "name" logGroupName, set "retention_in_days" (.int 30), tags]

def resources : Document :=
  ⟨[cluster,
    task,
    service,
    .comment "Application Load Balancer",
    loadBalancer,
    targetGroup,
    listener,
    .comment "Security group for the ECS tasks",
    serviceSecurityGroup,
    .comment "Security group for the ALB",
    balancerSecurityGroup,
    .comment "IAM roles for task execution (pulling images) and the task itself",
    role "ecs_execution" "-ecs-execution",
    role "ecs_task" "-ecs-task",
    policyAttachment "ecs_execution"
      (.text "arn:aws:iam::aws:policy/service-role/AmazonECSTaskExecutionRolePolicy"),
    pullPolicy,
    policyAttachment "registry_pull" (ref "aws_iam_policy.registry_pull.arn"),
    logGroup,
    .block "data" ["aws_region", "current"] []]⟩

def outputs : List Output :=
  [⟨"cluster_id", "The ECS cluster ID", ref "aws_ecs_cluster.this.id"⟩,
    ⟨"service_id", "The ECS service ID", ref "aws_ecs_service.this.id"⟩,
    ⟨"load_balancer_dns", "The DNS name of the load balancer", ref "aws_lb.this.dns_name"⟩,
    ⟨"load_balancer_url", "The URL to access the application",
      .template ("http://" ++ slot "aws_lb.this.dns_name")⟩,
    ⟨"load_balancer_arn", "The ARN of the load balancer", ref "aws_lb.this.arn"⟩,
    ⟨"security_group_id", "The security group ID for ECS tasks",
      ref "aws_security_group.this.id"⟩,
    ⟨"alb_security_group_id", "The security group ID for the ALB",
      ref "aws_security_group.alb.id"⟩,
    ⟨"task_execution_role_arn", "The task execution role ARN",
      ref "aws_iam_role.ecs_execution.arn"⟩,
    ⟨"task_role_arn", "The task role ARN", ref "aws_iam_role.ecs_task.arn"⟩]

end Container

def container : Template where
  typeName := "container"
  noun := "container service"
  extraVariables := Container.extraVariables
  bind := Container.bind
  resources := fun _ => Container.resources
  outputs := Container.outputs

end Module
end Groundplan
