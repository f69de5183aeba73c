import Groundplan.Module.Basic
import Groundplan.Text.Quoted

/-!
Database workloads: a single managed instance in the private subnets.
-/

namespace Groundplan
namespace Module
namespace Database

open Hcl

def defaultInstance : Value := .text "db.t3.micro"
def defaultStorage : Value := .int 20
def defaultRetention : Value := .int 7

def placeholderPassword : String := "TemporaryPassword123!"

def extraVariables : List Variable :=
  [{ name := "engine", description := "The database engine", type := "string",
     default := some (.text "postgres") },
    { name := "engine_version", description := "The database engine version", type := "string",
      default := some (.text "13.4") },
    { name := "instance", description := "The database instance type", type := "string",
      default := some defaultInstance },
    { name := "storage", description := "The allocated storage in GB", type := "number",
      default := some defaultStorage },
    { name := "backup_retention", description := "The number of days to retain backups",
      type := "number", default := some defaultRetention }]

def bind (w : Workload) : Binding :=
  .required "engine" "engine" w.engine ++
  .required "engine_version" "version" w.version ++
  .optional "instance" (w.resources.instanceType.map Value.text) defaultInstance ++
  .optional "storage" (w.resources.storage.map Value.int) defaultStorage ++
  .optional "backup_retention" ((w.backup.bind Backup.retention).map Value.int) defaultRetention

/-- The port follows from the engine. -/
def enginePort : String :=
  "var.engine == \"postgres\" ? 5432 : var.engine == \"mysql\" ? 3306 : 1433"

/-- The password is either left to the provider or written into the module. -/
def credentialItems : Credentials → List Item
  | .placeholder =>
    [.comment "WARNING: hard-coded placeholder password, replace before production use",
      set "password" (.text placeholderPassword)]
  | .managed =>
    [.comment "Password is generated by RDS and stored in AWS Secrets Manager",
      set "manage_master_user_password" (.bool true)]

def databaseInstance (credentials : Credentials) : Item :=
  resource "aws_db_instance" "this"
    ([set "identifier" (nameEnv ""),
      set "engine" (ref "var.engine"),
      set "engine_version" (ref "var.engine_version"),
      set "instance_class" (ref "var.instance"),
      set "allocated_storage" (ref "var.storage"),
      set "storage_type" (.text "gp2"),
      .blank,
      set "db_name" (ref "replace(var.name, \"-\", \"_\")"),
      set "username" (.text "dbadmin")] ++
     credentialItems credentials ++
     [.blank,
      set "vpc_security_group_ids" (.list [ref "aws_security_group.this.id"]),
      set "db_subnet_group_name" (ref "aws_db_subnet_group.this.name"),
      .blank,
      set "backup_retention_period" (ref "var.backup_retention"),
      set "skip_final_snapshot" (.bool true),
      .blank,
      tags])

def subnetGroup : Item :=
  resource "aws_db_subnet_group" "this"
    [set "name" (nameEnv ""), set "subnet_ids" (ref "var.subnets"), tags]

def securityGroup : Item :=
  resource "aws_security_group" "this"
    [set "name" (nameEnv "-db"),
      set "description" (.template ("Security group for " ++ slot "var.name" ++ " database")),
      set "vpc_id" (ref "var.vpc_id"),
      rule "ingress" (ref "local.port") (ref "local.port") "tcp" (cidrBlocks "10.0.0.0/8"),
      tags]

def resources (credentials : Credentials) : Document :=
  ⟨[nested "locals" [set "port" (ref enginePort)],
    databaseInstance credentials, subnetGroup, securityGroup]⟩

def outputs : List Output :=
  [⟨"endpoint", "The database endpoint", ref "aws_db_instance.this.endpoint"⟩,
    ⟨"address", "The database address", ref "aws_db_instance.this.address"⟩,
    ⟨"port", "The database port", ref "aws_db_instance.this.port"⟩,
    ⟨"name", "The database name", ref "aws_db_instance.this.db_name"⟩,
    ⟨"master_user_secret_arn", "Secrets Manager ARN of the generated master password, if managed",
      ref "try(aws_db_instance.this.master_user_secret[0].secret_arn, null)"⟩]

def warnings : Credentials → List String
  | .managed => []
  | .placeholder =>
    ["database module embeds the placeholder password " ++ Text.quoted placeholderPassword ++
      "; use --db-credentials managed to keep it in AWS Secrets Manager"]

end Database

def database : Template where
  typeName := "database"
  noun := "database"
  extraVariables := Database.extraVariables
  bind := Database.bind
  resources := Database.resources
  outputs := Database.outputs
  warnings := Database.warnings

end Module
end Groundplan
