import TaskGraph.Declaration.Interface
import TaskGraph.Declaration.Settings

namespace TaskGraph

open Json (Value)

/-- What is wrong, or doubtful, about a secret that a task asks for. -/
def Secret.findings (s : Secret) : Report :=
  let text := s.text
  (if Text.isBlank s.group then
    [.error s!"{text} is not a valid secret, group must be non-empty"] else []) ++
  match s.key with
  | some key =>
    if Text.isBlank key then
      [.error s!"{text} is not a valid secret, key must be non-empty when given"] else []
  | none => [.warning s!"secret {text} has no key; the whole group is requested"]

/-- What the declaration of a task may say besides its signature. -/
structure TaskOptions where
  interface : InterfaceOptions := {}
  cacheVersion : Option String := none
  secrets : List Secret := []
  deriving DecidableEq

/-- Everything found about the options of a task of this arity. -/
def TaskOptions.findings (o : TaskOptions) (arity : Nat) : Report :=
  (o.interface.issues arity).map .error ++
  (if o.cacheVersion.any Text.isBlank then [.error "cache_version cannot be empty"] else []) ++
  o.secrets.flatMap Secret.findings

/-- The container that the orchestrator starts for a task. -/
structure TaskContainer where
  image : String
  args : List String
  inputPath : String
  outputPath : String
  deriving DecidableEq

def TaskContainer.toWire (c : TaskContainer) : Value :=
  .obj [
    ("args", .ofTexts c.args),
    ("data_config", .obj [
      ("enabled", .bool true),
      ("input_path", .str c.inputPath),
      ("output_path", .str c.outputPath)]),
    ("env", .arr []),
    ("image", .str c.image),
    ("resources", .obj [])]

/-- A task whose declaration has been checked. -/
structure Task where
  id : Identifier
  interface : Interface
  container : TaskContainer
  taskType : String
  cacheVersion : Option String
  secrets : List Secret
  deriving DecidableEq

/-- The name and version under which this library reports itself as the runtime of a task. -/
def runtimeFlavor : String := "graphwright"

@[inherit_doc runtimeFlavor]
def runtimeVersion : String := "0.1.0"

namespace Task

/-- The name of a task, which is its node name. -/
def name (t : Task) : String := t.id.name

/-- The metadata of the task's wire document. A task with a cache version is discoverable. -/
def metadata (t : Task) : Value :=
  .ofFields ([
    ("runtime", .obj [
      ("flavor", .str runtimeFlavor),
      ("type", .str "OTHER"),
      ("version", .str runtimeVersion)]),
    ("retries", .obj [])] ++
    match t.cacheVersion with
    | some version => [("discoverable", .bool true), ("discovery_version", .str version)]
    | none => [])

/-- The template from which the orchestrator runs the task. -/
def template (t : Task) : Value :=
  .ofFields ([
    ("type", .str t.taskType),
    ("metadata", t.metadata),
    ("interface", t.interface.toWire),
    ("container", t.container.toWire),
    ("config", t.interface.config)] ++
    if t.secrets.isEmpty then [] else
      [("security_context", .obj [("secrets", .arr (t.secrets.map Secret.toJson))])])

def toWire (t : Task) : Value :=
  .obj [("id", t.id.toJson), ("spec", .obj [("template", t.template)])]

/-- The task that a signature and options declare, if nothing is wrong with them. -/
def declare (signature : Signature) (options : TaskOptions) (scope : Scope)
    (container : Container) : Action Task := do
  let name ← Action.ofExcept signature.nodeName
  (options.findings signature.arity).conclude s!"task `{name}`"
  return {
    id := scope.identifier .task name
    interface := options.interface.interface signature.arity
    container := {
      image := container.image
      args := container.arguments name
      inputPath := container.inputDir
      outputPath := container.outputDir }
    taskType := container.taskType
    cacheVersion := options.cacheVersion
    secrets := options.secrets }

end Task

/-- The identity and interface of a workflow. -/
structure WorkflowHeader where
  id : Identifier
  interface : Interface
  deriving DecidableEq

namespace WorkflowHeader

def name (h : WorkflowHeader) : String := h.id.name

/-- The workflow that a signature and options declare, if nothing is wrong with them. -/
def declare (signature : Signature) (options : InterfaceOptions) (scope : Scope) :
    Action WorkflowHeader := do
  let name ← Action.ofExcept signature.nodeName
  Report.conclude ((options.issues signature.arity).map .error) s!"workflow `{name}`"
  return {
    id := scope.identifier .workflow name
    interface := options.interface signature.arity }

end WorkflowHeader

end TaskGraph
