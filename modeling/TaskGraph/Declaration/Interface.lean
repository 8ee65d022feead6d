import TaskGraph.Declaration.Report
import TaskGraph.Text.Blank

namespace TaskGraph

open Json (Value)

/-- A function as it is declared: its name and how many parameters it takes. -/
structure Signature where
  name : String
  arity : Nat
  deriving DecidableEq

/-- The name without blanks around it. What has no name cannot be a node of a graph. -/
def Signature.nodeName (s : Signature) : Except Error String :=
  if Text.isBlank s.name then .error (.naming s.arity) else .ok (Text.trim s.name)

/-- An input or output. -/
structure Variable where
  name : String
  type : DeclaredType
  deriving DecidableEq

def Variable.toWire (v : Variable) : Value :=
  .obj [("description", .str v.name), ("type", v.type.toWire)]

/-- The inputs of a function in order, and its output. -/
structure Interface where
  inputs : List Variable
  output : Variable
  deriving DecidableEq

namespace Interface

def input? (i : Interface) (name : String) : Option Variable := i.inputs.find? (·.name == name)

def inputNames (i : Interface) : List String := i.inputs.map (·.name)

/-- The interface as a wire document, which does not keep the order of the inputs. -/
def toWire (i : Interface) : Value :=
  .obj [
    ("inputs", .obj [("variables", .ofFields (i.inputs.map fun v => (v.name, v.toWire)))]),
    ("outputs", .obj [("variables", .ofFields [(i.output.name, i.output.toWire)])])]

/-- The configuration that goes with a task: the order of the inputs, and the type tag of each
    variable. -/
def config (i : Interface) : Value :=
  .ofFields (
    [("inputOrder", .str (Text.join "," i.inputNames))] ++
    i.inputs.map (fun v => ("input-" ++ v.name, .str v.type.tag)) ++
    [("output-" ++ i.output.name, .str i.output.type.tag)])

end Interface

/-- What a declaration may say about names and types; all of it may be left open. -/
structure InterfaceOptions where
  paramNames : Option (List String) := none
  paramTypes : Option (List TypeSpec) := none
  outputName : Option String := none
  outputType : Option TypeSpec := none
  deriving DecidableEq

/-- The name of an output that is given none. -/
def defaultOutput : String := "output0"

namespace InterfaceOptions

/-- The name of the input at a position: the one given, else one made from the position. -/
def inputName (o : InterfaceOptions) (position : Nat) : String :=
  ((o.paramNames.getD [])[position]?).getD s!"input{position}"

/-- The type given for the input at a position. -/
def inputSpec? (o : InterfaceOptions) (position : Nat) : Option TypeSpec :=
  (o.paramTypes.getD [])[position]?

/-- The type meant by an optional specification; one that means no type declares none. -/
def declared (spec : Option TypeSpec) : DeclaredType :=
  match spec.bind TypeSpec.resolve? with
  | some t => .typed t
  | none => .untyped

/-- The name of the output, where a blank one counts as none. -/
def outputNameOrDefault (o : InterfaceOptions) : String :=
  match o.outputName with
  | some name => if Text.isBlank name then defaultOutput else name
  | none => defaultOutput

def interface (o : InterfaceOptions) (arity : Nat) : Interface where
  inputs := (List.range arity).map fun i => ⟨o.inputName i, declared (o.inputSpec? i)⟩
  output := ⟨o.outputNameOrDefault, declared o.outputType⟩

/-- What is wrong with parameter names for a function of this arity. -/
def nameIssues (arity : Nat) (names : List String) : List String :=
  (if names.length = arity then [] else
    let given := names.length
    [s!"provided paramNames do not match the parameter count; function has {arity} parameters, " ++
      s!"provided {given} paramNames"]) ++
  (if names.any (fun n => n.contains ',') then ["paramNames entries cannot include commas"]
    else []) ++
  (if names.any (fun n => n.isEmpty) then ["paramNames entries cannot be empty"] else []) ++
  (if names.Nodup then [] else ["paramNames entries cannot be duplicates"])

/-- What is wrong with the number of parameter types for a function of this arity. -/
def typeCountIssues (arity : Nat) (types : List TypeSpec) : List String :=
  if types.length = arity then [] else
    let given := types.length
    [s!"provided paramTypes do not match the parameter count; function has {arity} parameters, " ++
      s!"provided {given} paramTypes"]

/-- What is wrong with the type given for `place`. -/
def typeIssues (spec : Option TypeSpec) (place : String) : List String :=
  match spec with
  | none => []
  | some spec =>
    if spec.resolve?.isSome then [] else
      let text := spec.text
      [s!"{text} is not a valid type for {place}"]

/-- What is wrong with the name of the output. -/
def outputNameIssues (o : InterfaceOptions) : List String :=
  if o.outputName.any Text.isBlank then ["outputName cannot be empty"] else []

/-- Everything that is wrong with the options for a function of this arity. -/
def issues (o : InterfaceOptions) (arity : Nat) : List String :=
  (o.paramNames.map (nameIssues arity)).getD [] ++
  (o.paramTypes.map (typeCountIssues arity)).getD [] ++
  (List.range arity).flatMap (fun i =>
    let name := o.inputName i
    typeIssues (o.inputSpec? i) s!"parameter `{name}`") ++
  o.outputNameIssues ++
  typeIssues o.outputType "the output"

end InterfaceOptions

end TaskGraph
