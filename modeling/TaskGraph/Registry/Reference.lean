import TaskGraph.Registry.RemoteInterface

namespace TaskGraph

/-- An object of the server that is used by its identity. -/
structure Reference where
  id : Identifier
  kind : ReferenceKind
  interface : Option RemoteInterface
  deriving DecidableEq

namespace Reference

/-- A reference whose interface is still unknown. No part of the identity may be blank. -/
def declare (kind : ReferenceKind) (project domain name version : String) :
    Except Error Reference :=
  let id : Identifier :=
    { resourceType := kind.resourceType, project, domain, name, version }
  let parts := [("project", project), ("domain", domain), ("name", name), ("version", version)]
  let issues := (parts.filter fun part => Text.isBlank part.2).map fun part =>
    part.1 ++ " must be non-empty"
  if issues.isEmpty then .ok ⟨id, kind, none⟩
  else .error (.validation ("reference to " ++ id.text) issues)

/-- The node name: the parts of the identity joined by dashes. -/
def key (r : Reference) : String :=
  Text.join "-" [r.id.project, r.id.domain, r.id.name, r.id.version]

/-- The path under which the server describes the object. -/
def documentPath (r : Reference) : String :=
  Text.join "/" ["api/v1", r.kind.collection, r.id.project, r.id.domain, r.id.name, r.id.version]

def isResolved (r : Reference) : Bool := r.interface.isSome

/-- Fills in the interface, which must not be known yet. -/
def fillIn (r : Reference) (interface : RemoteInterface) : Except Error Reference :=
  if r.isResolved then
    let key := r.key
    .error (.validation s!"reference {key}" ["interface was already resolved"])
  else
    .ok { r with interface := some interface }

end Reference

end TaskGraph
