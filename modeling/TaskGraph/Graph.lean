import TaskGraph.Registry.Basic

namespace TaskGraph

open Json (Value)

/-- The field of a node's wire document that says what the node runs. -/
def NodeTarget.field : NodeTarget → String × Value
  | task id => ("task_node", .obj [("reference_id", id.toJson)])
  | launchPlan id => ("workflow_node", .obj [("launchplan_ref", id.toJson)])

/-- An input of a node with its binding. -/
structure NodeInput where
  var : String
  binding : Binding
  deriving DecidableEq

def NodeInput.toWire (i : NodeInput) : Value :=
  .obj [("binding", i.binding.toWire), ("var", .str i.var)]

/-- A node of a graph: one call. -/
structure GraphNode where
  id : String
  /-- The node name of the target. -/
  name : String
  target : NodeTarget
  inputs : List NodeInput
  deriving DecidableEq

namespace GraphNode

def dependencies (n : GraphNode) : List String := n.inputs.filterMap (·.binding.node?)

def toWire (n : GraphNode) : Value :=
  .ofFields [
    ("id", .str n.id),
    ("metadata", .obj [("name", .str n.name), ("retries", .obj [])]),
    ("inputs", .arr (n.inputs.map NodeInput.toWire)),
    n.target.field]

end GraphNode

/-- A workflow by its nodes. Its output feeds the end node and the workflow output alike. -/
structure Graph where
  id : Identifier
  interface : Interface
  nodes : List GraphNode
  output : NodeInput
  deriving DecidableEq

/-- The plan by which a workflow is launched: one required parameter for each input. -/
structure LaunchPlan where
  id : Identifier
  workflowId : Identifier
  interface : Interface
  deriving DecidableEq

def LaunchPlan.toWire (p : LaunchPlan) : Value :=
  let parameters := p.interface.inputs.map fun v =>
    (v.name, Value.obj [("required", .bool true), ("var", v.toWire)])
  .obj [
    ("id", p.id.toJson),
    ("spec", .obj [
      ("default_inputs", .obj [("parameters", .ofFields parameters)]),
      ("workflow_id", p.workflowId.toJson)])]

namespace Graph

def name (g : Graph) : String := g.id.name

def node? (g : Graph) (id : String) : Option GraphNode := g.nodes.find? (·.id == id)

/-- The graph as a wire document, with the start node and the end node in front. -/
def toWire (g : Graph) : Value :=
  let start : Value := .obj [("id", .str startNode)]
  let stop : Value := .obj [("id", .str endNode), ("inputs", .arr [g.output.toWire])]
  .obj [
    ("id", g.id.toJson),
    ("spec", .obj [("template", .obj [
      ("id", g.id.toJson),
      ("interface", g.interface.toWire),
      ("nodes", .arr (start :: stop :: g.nodes.map GraphNode.toWire)),
      ("outputs", .arr [g.output.toWire])])])]

/-- The node for one captured call, whose target has to be registered. -/
def nodeOfCall (registry : Registry) (id : String) (call : Call) : Except Error GraphNode :=
  match registry.target? call.target with
  | some target =>
    .ok { id, name := call.target, target, inputs := call.inputs.map fun (v, b) => ⟨v, b⟩ }
  | none => .error (.missingReference call.target (.unregistered id))

/-- The graph of a workflow from the calls of its trace and the binding of its output. -/
def ofCalls (registry : Registry) (calls : CallLog) (result : Binding)
    (workflow : WorkflowHeader) : Except Error Graph := do
  let nodes ← calls.entries.mapM fun (id, call) => nodeOfCall registry id call
  return {
    id := workflow.id
    interface := workflow.interface
    nodes
    output := ⟨workflow.interface.output.name, result⟩ }

def launchPlan (g : Graph) : LaunchPlan where
  id := g.id.asResource .launchPlan
  workflowId := g.id
  interface := g.interface

end Graph

end TaskGraph
