import TaskGraph.Trace.Callable
import TaskGraph.Registry.Reference
import TaskGraph.Trace.Workflow

namespace TaskGraph

open Json (Value)

/-- The work of a task. -/
structure TaskBody where
  mode : Mode
  run : List Value → Except Error Value

/-- A task with the work it does. -/
structure RegisteredTask where
  task : Task
  body : TaskBody

/-- What a node of a graph runs. -/
inductive NodeTarget where
  | task (id : Identifier)
  | launchPlan (id : Identifier)
  deriving DecidableEq

/-- The tasks and references that workflows can use, each kind in the order in which they came.
    `register` and `declare` give no name to two entries. -/
structure Registry where
  tasks : List RegisteredTask
  references : List Reference

namespace Registry

def empty : Registry := ⟨[], []⟩

def task? (r : Registry) (name : String) : Option RegisteredTask :=
  r.tasks.find? (·.task.name == name)

def reference? (r : Registry) (key : String) : Option Reference :=
  r.references.find? (·.key == key)

/-- Adds a task under its name, which must be free. -/
def register (r : Registry) (task : Task) (body : TaskBody) : Except Error Registry :=
  let name := task.name
  if (r.task? name).isSome || (r.reference? name).isSome then
    .error (.validation s!"task `{name}`" ["a task with this name is already registered"])
  else
    .ok { r with tasks := r.tasks ++ [⟨task, body⟩] }

/-- Adds a reference under its node name, which comes with the new registry. The name may be taken
    by a reference of the same kind: then that one stands for both. -/
def declare (r : Registry) (reference : Reference) : Action (String × Registry) := do
  let key := reference.key
  if (r.task? key).isSome then
    throw (.validation s!"reference `{key}`" ["a local task with this name is already registered"])
  match r.reference? key with
  | some existing =>
    if existing.kind ≠ reference.kind then
      throw (.validation s!"reference `{key}`"
        ["already declared as a " ++ existing.id.resourceType.name])
    Action.log .debug s!"reference {key} already declared"
    return (key, r)
  | none => return (key, { r with references := r.references ++ [reference] })

/-- The references whose interface is not known. -/
def unresolved (r : Registry) : List Reference := r.references.filter (!·.isResolved)

/-- The registry with the interface of the reference of this node name filled in. -/
def fillIn (r : Registry) (key : String) (interface : RemoteInterface) :
    Except Error Registry := do
  let references ← r.references.mapM fun reference =>
    if reference.key = key then reference.fillIn interface else .ok reference
  return { r with references }

def callableOfTask (t : RegisteredTask) : Callable where
  name := t.task.name
  kind := .task
  interface := t.task.interface
  convention := .positional

/-- A reference as it can be called, once its interface is known. -/
def callableOfReference? (r : Reference) : Option Callable :=
  r.interface.map fun remote =>
    { name := r.key
      kind := match r.kind with
        | .task => .taskReference
        | .launchPlan => .launchPlanReference
      interface := remote.interface
      convention := match r.kind, remote.inputOrder with
        | .task, some _ => .positionalOrKeyword
        | _, _ => .keyword }

/-- All that can be called. References without an interface are left out. -/
def callables (r : Registry) : Callables :=
  (r.tasks.map callableOfTask ++ r.references.filterMap callableOfReference?).foldl
    Callables.insert .empty

/-- What a reference's node runs. -/
def targetOfReference (r : Reference) : NodeTarget :=
  match r.kind with
  | .task => .task r.id
  | .launchPlan => .launchPlan r.id

/-- What the nodes of this name run. -/
def target? (r : Registry) (name : String) : Option NodeTarget :=
  match r.task? name with
  | some t => some (.task t.task.id)
  | none => (r.reference? name).map targetOfReference

end Registry

end TaskGraph
