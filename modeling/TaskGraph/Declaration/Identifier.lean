import TaskGraph.Json.Record

namespace TaskGraph

open Json (Value)

/-- The kinds of objects that have an identity. -/
inductive ResourceType where
  | task
  | workflow
  | launchPlan
  deriving DecidableEq

namespace ResourceType

def all : List ResourceType := [.task, .workflow, .launchPlan]

def name : ResourceType → String
  | task => "TASK"
  | workflow => "WORKFLOW"
  | launchPlan => "LAUNCH_PLAN"

def ofJson? (v : Value) : Option ResourceType :=
  v.variant?.bind fun s => all.find? fun r => r.name == s

end ResourceType

/-- What tells one object of the orchestrator from all others. -/
structure Identifier where
  resourceType : ResourceType
  project : String
  domain : String
  name : String
  version : String
  deriving DecidableEq

namespace Identifier

/-- The same identity for another kind of object, such as the launch plan of a workflow. -/
def asResource (id : Identifier) (resourceType : ResourceType) : Identifier :=
  { id with resourceType }

def text (id : Identifier) : String :=
  s!"{id.resourceType.name} {id.project}/{id.domain}/{id.name}@{id.version}"

def toJson (id : Identifier) : Value :=
  .obj [("domain", .str id.domain), ("name", .str id.name), ("project", .str id.project),
    ("resource_type", .str id.resourceType.name), ("version", .str id.version)]

def ofJson? (v : Value) : Option Identifier := do
  match ← v.record? ["resource_type", "project", "domain", "name", "version"] with
  | [resourceType, project, domain, name, version] =>
    return {
      resourceType := ← resourceType.bind ResourceType.ofJson?
      project := ← project.bind Value.str?
      domain := ← domain.bind Value.str?
      name := ← name.bind Value.str?
      version := ← version.bind Value.str? }
  | _ => none

end Identifier

/-- The project, domain and version shared by all that is declared together. -/
structure Scope where
  project : String
  domain : String
  version : String
  deriving DecidableEq

def Scope.identifier (scope : Scope) (resourceType : ResourceType) (name : String) : Identifier :=
  { resourceType, project := scope.project, domain := scope.domain, name, version := scope.version }

end TaskGraph
