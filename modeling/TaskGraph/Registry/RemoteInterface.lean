import TaskGraph.Declaration.Identifier
import TaskGraph.Declaration.Interface

namespace TaskGraph

open Json (Value)

/-- What a reference stands for. -/
inductive ReferenceKind where
  | task
  | launchPlan
  deriving DecidableEq

namespace ReferenceKind

def resourceType : ReferenceKind → ResourceType
  | task => .task
  | launchPlan => .launchPlan

def collection : ReferenceKind → String
  | task => "tasks"
  | launchPlan => "launch_plans"

end ReferenceKind

/-- The interface of an object of the server, and the order of its inputs when one is known. -/
structure RemoteInterface where
  interface : Interface
  inputOrder : Option (List String)
  deriving DecidableEq

namespace RemoteInterface

/-- The names listed in an order of inputs; an empty text lists none. -/
def splitOrder (order : String) : List String :=
  if order.isEmpty then [] else Text.split ',' order

/-- The one output among the declared variables. What is not an object declares none. -/
def onlyOutput (outputs : Option Value) : Except Error Variable :=
  match (outputs.bind Value.obj?).getD [] with
  | [(name, declared)] => .ok ⟨name, .ofWireVariable declared⟩
  | others => .error (.invalidInput (.outputCount others.length))

/-- The type of an input of a task template. Text and untyped are the same on the wire; the tag in
    the configuration tells them apart. -/
def inputType (config : Option Value) (name : String) (declared : Value) : DeclaredType :=
  if (config.bind (·.get? ("input-" ++ name))).bind Value.str? = some "untyped" then .untyped
  else .ofWireVariable declared

/-- The inputs of these names, each with the type that the template gives it. -/
def namedInputs (config : Option Value) (inputs : List (String × Value)) :
    List String → Except Error (List Variable)
  | [] => .ok []
  | name :: names => do
    let some declared := inputs.lookup name
      | throw (.invalidInput (.orderName name))
    return ⟨name, inputType config name declared⟩ :: (← namedInputs config inputs names)

/-- The inputs of a task template: in the order that its configuration lists, else by name. An
    order must list as many names as there are inputs. -/
def templateInputs (config : Option Value) (order : Option (List String)) :
    Option (List (String × Value)) → Except Error (List Variable)
  | none => .ok []
  | some inputs =>
    let names := order.getD (inputs.map (·.1))
    if names.length = inputs.length then namedInputs config inputs names
    else .error (.invalidInput (.orderLength names.length inputs.length))

/-- The interface that the template of a registered task declares. -/
def ofTaskTemplate (template : Value) : Except Error RemoteInterface := do
  let config := template.get? "config"
  let order := ((config.bind (·.get? "inputOrder")).bind Value.str?).map splitOrder
  let inputs ← templateInputs config order
    ((template.at? ["interface", "inputs", "variables"]).bind Value.obj?)
  let output ← onlyOutput (template.at? ["interface", "outputs", "variables"])
  return ⟨⟨inputs, output⟩, order⟩

/-- The interface that the closure of a registered launch plan declares. -/
def ofLaunchPlanClosure (closure : Value) : Except Error RemoteInterface := do
  let parameters :=
    ((closure.at? ["expected_inputs", "parameters"]).bind Value.obj?).getD []
  let inputs := parameters.map fun (name, parameter) =>
    (⟨name, ((parameter.get? "var").map DeclaredType.ofWireVariable).getD .untyped⟩ : Variable)
  let output ← onlyOutput (closure.at? ["expected_outputs", "variables"])
  return ⟨⟨inputs, output⟩, none⟩

/-- The interface in the document of an object of this kind. -/
def ofDocument : ReferenceKind → Value → Except Error RemoteInterface
  | .task => ofTaskTemplate
  | .launchPlan => ofLaunchPlanClosure

end RemoteInterface

end TaskGraph
