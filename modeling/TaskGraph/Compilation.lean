import TaskGraph.Server.Resolution
import TaskGraph.Server.Submission

namespace TaskGraph

/-- What is ready to be handed in. -/
structure Bundle where
  tasks : List Task
  workflows : List Graph
  launchPlans : List LaunchPlan
  deriving DecidableEq

def Bundle.workflow? (u : Bundle) (name : String) : Option Graph :=
  u.workflows.find? (·.name == name)

/-- What became of each object of a registration. -/
structure Receipt where
  tasks : List SubmitStatus
  workflows : List SubmitStatus
  launchPlans : List SubmitStatus
  deriving DecidableEq

def Receipt.statuses (r : Receipt) : List SubmitStatus :=
  r.tasks ++ r.workflows ++ r.launchPlans

/-- Settings, and what has been declared under them. The bodies of the workflows keep notes of a
    type `σ`. -/
structure Compilation (σ : Type) where
  settings : Settings
  registry : Registry
  workflows : List (Workflow σ)

namespace Compilation

variable {σ : Type}

/-- A compilation without declarations, under settings that are complete. -/
def start (settings : Settings) : Except Error (Compilation σ) := do
  settings.validate
  return ⟨settings, .empty, []⟩

/-- Declares a task. Its name comes with the new compilation. -/
def task (c : Compilation σ) (signature : Signature) (options : TaskOptions) (body : TaskBody) :
    Action (String × Compilation σ) := do
  let task ← Task.declare signature options c.settings.scope c.settings.container
  let registry ← Action.ofExcept (c.registry.register task body)
  let name := task.name
  Action.log .debug s!"declared task {name}"
  return (name, { c with registry })

/-- Declares a reference. Its node name comes with the new compilation. -/
def reference (c : Compilation σ) (kind : ReferenceKind) (project domain name version : String) :
    Action (String × Compilation σ) := do
  let reference ← Action.ofExcept (Reference.declare kind project domain name version)
  let (key, registry) ← c.registry.declare reference
  return (key, { c with registry })

/-- Declares a workflow, whose name must be free among the workflows. -/
def workflow (c : Compilation σ) (signature : Signature) (options : InterfaceOptions) (mode : Mode)
    (body : List Binding → σ → Body σ) : Action (Compilation σ) := do
  let header ← WorkflowHeader.declare signature options c.settings.scope
  let name := header.name
  if c.workflows.any (·.name == name) then
    throw (.validation s!"workflow `{name}`" ["a workflow with this name is already declared"])
  return { c with workflows := c.workflows ++ [⟨header, mode, body⟩] }

/-- The graphs of workflows, traced one after the other. Each trace is handed the log of the one
    before. -/
def graphs (registry : Registry) (callables : Callables) (calls : CallLog) :
    List (Workflow σ) → Routine σ (List Graph)
  | [] => return []
  | w :: ws => do
    let (result, traced) ← w.trace callables calls
    let graph ← Routine.ofExcept (Graph.ofCalls registry traced result w.header)
    return graph :: (← graphs registry callables traced ws)

/-- Traces every workflow and assembles its graph and launch plan. All references must be resolved
    by then. -/
def compile (c : Compilation σ) : Routine σ Bundle := do
  let unresolved := c.registry.unresolved
  unless unresolved.isEmpty do
    throw (.missingReference (Text.join ", " (unresolved.map Reference.key)) .unresolved)
  let graphs ← graphs c.registry c.registry.callables .empty c.workflows
  return {
    tasks := c.registry.tasks.map (·.task)
    workflows := graphs
    launchPlans := graphs.map Graph.launchPlan }

end Compilation

/-- A compilation with the link over which it is registered and the notes of its workflows. -/
structure Session (σ ω : Type) where
  compilation : Compilation σ
  link : Link ω
  notes : σ

namespace Session

variable {σ ω : Type}

/-- Fills in the interfaces of all references that lack one, and answers how many did. -/
def resolveReferences (server : Server ω) : Routine (Session σ ω) Nat :=
  Routine.onPart (fun s => (s.compilation.registry, s.link))
    (fun s (registry, link) =>
      { s with compilation := { s.compilation with registry }, link })
    (Registry.resolve server)

def compile : Routine (Session σ ω) Bundle := do
  let session ← get
  Routine.onPart (·.notes) (fun s notes => { s with notes }) session.compilation.compile

def submit (server : Server ω) (collection : Collection) (submissions : List Submission) :
    Routine (Session σ ω) (List SubmitStatus) :=
  Routine.onPart (·.link) (fun s link => { s with link }) (collection.submit server submissions)

/-- Registers all that was declared: what is open is resolved, the workflows are compiled, and then
    tasks, workflows and launch plans are handed in, each step after the one before it succeeded. -/
def register (server : Server ω) : Routine (Session σ ω) Receipt := do
  let _ ← resolveReferences server
  let unit ← compile
  let taskCount := unit.tasks.length
  let workflowCount := unit.workflows.length
  let endpoint := (← get).compilation.settings.endpoint
  Routine.log .info s!"registering {taskCount} tasks, {workflowCount} workflows to {endpoint}"
  let tasks ← submit server .tasks (unit.tasks.map Task.submission)
  let workflows ← submit server .workflows (unit.workflows.map Graph.submission)
  let launchPlans ← submit server .launchPlans (unit.launchPlans.map LaunchPlan.submission)
  return { tasks, workflows, launchPlans }

end Session

end TaskGraph
