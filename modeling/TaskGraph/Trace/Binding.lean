import TaskGraph.Error

namespace TaskGraph

open Json (Value)

/-- The node whose outputs are the inputs of the workflow. -/
def startNode : String := "start-node"

/-- The node whose input is the result of the workflow. -/
def endNode : String := "end-node"

/-- A named output of a node. -/
structure Promise where
  node : String
  var : String
  deriving DecidableEq

/-- What an edge carries. -/
inductive Binding where
  | promise (promise : Promise)
  | constant (value : Value) (type : DeclaredType)
  deriving DecidableEq

namespace Binding

def node? : Binding → Option String
  | promise p => some p.node
  | constant .. => none

/-- The promise that a workflow input stands for. -/
def ofInput (name : String) : Binding := .promise ⟨startNode, name⟩

/-- The binding as a wire document. An untyped constant is written as the text of its JSON. -/
def toWire : Binding → Value
  | promise p =>
    .obj [("promise", .obj [("node_id", .str p.node), ("var", .str p.var)])]
  | constant value type =>
    let primitive :=
      match type with
      | .typed t => t.primitive value
      | .untyped => .obj [("string_value", .str value.render)]
    .obj [("scalar", .obj [("primitive", primitive)])]

end Binding

/-- What a call or a workflow body can hand in. -/
inductive Argument where
  | bound (binding : Binding)
  | literal (value : Value)
  deriving DecidableEq

namespace Argument

/-- The binding of an argument to a variable of the expected type. A promise is taken as it is. A
    constant must pass the check of the expected type and then carries that type; where none is
    expected it keeps its own. A literal must not hold null anywhere. -/
def bind (expected : DeclaredType) : Argument → Except Error Binding
  | bound (.promise p) => .ok (.promise p)
  | bound (.constant value type) => do
    expected.validate value
    return .constant value (match expected with
      | .untyped => type
      | .typed t => .typed t)
  | literal value => do
    unless value.isNullFree do
      throw (.invalidInput (.notSerializable value))
    expected.validate value
    return .constant value expected

end Argument

end TaskGraph
