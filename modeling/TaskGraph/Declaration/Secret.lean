import TaskGraph.Json.Record
import TaskGraph.Json.Token

namespace TaskGraph

open Json (Value Number)

/-- Where a secret has to be found inside a container. -/
inductive MountKind where
  | any
  | envVar
  | file
  deriving DecidableEq

namespace MountKind

def all : List MountKind := [.any, .envVar, .file]

def name : MountKind → String
  | any => "ANY"
  | envVar => "ENV_VAR"
  | file => "FILE"

def number : MountKind → UInt64
  | any => 0
  | envVar => 1
  | file => 2

def ofJson? (v : Value) : Option MountKind :=
  v.variant?.bind fun s => all.find? fun k => k.name == s

end MountKind

/-- A secret: a group, a key in that group unless the whole group is meant, and where it has to be
    found unless that does not matter. -/
structure Secret where
  group : String
  key : Option String
  mount : Option MountKind
  deriving DecidableEq

namespace Secret

/-- The secret as a JSON value. What is not given is left out; the mount kind is its number. -/
def toJson (s : Secret) : Value :=
  .obj ([("group", .str s.group)] ++
    (s.key.map fun key => ("key", .str key)).toList ++
    (s.mount.map fun mount => ("mount_requirement", .num (.ofUInt64 mount.number))).toList)

def text (s : Secret) : String := s.toJson.render

def ofJson? (v : Value) : Option Secret := do
  match ← v.record? ["group", "key", "mount_requirement"] with
  | [group, key, mount] =>
    return {
      group := ← group.bind Value.str?
      key := ← Value.optional? Value.str? key
      mount := ← Value.optional? MountKind.ofJson? mount }
  | _ => none

end Secret

end TaskGraph
