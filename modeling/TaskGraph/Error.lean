import TaskGraph.Files.Fault
import TaskGraph.Declaration.LiteralType
import TaskGraph.Declaration.Secret
import TaskGraph.Text.Split

namespace TaskGraph

open Json (Value)

/-- How the arguments of a call miss the inputs of its target. -/
inductive ArityFault where
  /-- Arguments for a target without inputs. -/
  | takesNone
  /-- The wrong number of positional arguments. -/
  | count (expected received : Nat)
  /-- One name given twice. -/
  | repeated (name : String)
  /-- The names given are not the names of the inputs. -/
  | wrongNames (expected : List String)
  /-- Positional arguments where only names are understood. -/
  | namesOnly (expected : List String)
  /-- Named arguments where only positions are understood. -/
  | positionsOnly (expected : Nat)
  deriving DecidableEq

def ArityFault.detail : ArityFault → String
  | takesNone => "takes no inputs"
  | count expected received => s!"takes {expected}, received {received}"
  | repeated name => s!"`{name}` was passed twice"
  | wrongNames expected =>
    let names := Text.join ", " expected
    s!"expected keyword arguments {names}"
  | namesOnly expected =>
    let names := Text.join ", " expected
    s!"takes keyword arguments {names}"
  | positionsOnly expected => s!"takes {expected} positional arguments"

/-- Why something that was handed in cannot be used. -/
inductive InputFault where
  /-- A literal with a null in it. -/
  | notSerializable (value : Value)
  /-- A promise that this trace did not hand out. -/
  | foreignPromise (node var : String)
  /-- A remote task whose order of inputs has another length than its inputs. -/
  | orderLength (listed declared : Nat)
  /-- A remote task whose order of inputs names an input that it does not have. -/
  | orderName (name : String)
  /-- A remote object that does not have exactly one output. -/
  | outputCount (found : Nat)
  deriving DecidableEq

def InputFault.detail : InputFault → String
  | notSerializable value =>
    let text := value.render
    s!"{text} is not a serializable literal"
  | foreignPromise node var =>
    s!"{node}.{var} is neither a workflow input nor the output of an earlier call"
  | orderLength listed declared =>
    s!"inputOrder lists {listed} inputs but the task interface declares {declared}"
  | orderName name => s!"inputOrder names `{name}` which the task interface does not declare"
  | outputCount found => s!"expected exactly one output, found {found}"

/-- Why a name leads to nothing that can be used. -/
inductive ReferenceFault where
  /-- A call to a name that is not callable. -/
  | notCallable
  /-- A node whose target is in no registry. -/
  | unregistered (node : String)
  /-- References without an interface when workflows are compiled. -/
  | unresolved
  /-- The server answered with an error text. -/
  | refused (message : String)
  /-- The server answered with this status. -/
  | status (code : Nat)
  /-- An answer without a task template. -/
  | noTemplate
  /-- An answer without a launch plan closure. -/
  | noClosure
  deriving DecidableEq

def ReferenceFault.detail : ReferenceFault → String
  | notCallable => "not registered or not resolved before tracing"
  | unregistered node => s!"node {node} targets nothing registered"
  | unresolved => "references must be resolved before tracing"
  | refused message => message
  | status code => s!"HTTP {code}"
  | noTemplate => "response carries no compiled task template"
  | noClosure => "response carries no launch plan closure"

/-- Why a task did not run to its end. -/
inductive RuntimeFault where
  /-- The text that a body, or the connection to a server, gave. -/
  | raised (text : String)
  /-- A task that is not registered. -/
  | unknownTask (name : String)
  /-- An input whose file cannot be read. -/
  | unreadable (input path : String) (fault : FileFault)
  deriving DecidableEq

def RuntimeFault.detail : RuntimeFault → String
  | raised text => text
  | unknownTask name => s!"no task named `{name}` is registered"
  | unreadable input path fault =>
    let reason := fault.text
    s!"cannot read input `{input}` from {path}: {reason}"

/-- A failure of one of the operations of this library, with what `message` needs to tell of it. -/
inductive Error where
  /-- A function of this arity was declared without a name. -/
  | naming (arity : Nat)
  /-- A declaration breaks these rules. -/
  | validation (subject : String) (issues : List String)
  /-- The arguments of a call do not fit the inputs of its target. -/
  | arityMismatch (target : String) (fault : ArityFault)
  /-- One argument of a call, or the result of a workflow, cannot be used. -/
  | invalidArgument (target param : String) (source : Error)
  /-- Something that was handed in cannot be used. -/
  | invalidInput (fault : InputFault)
  /-- A value is not of the type that was declared. -/
  | typeMismatch (expected : LiteralType) (value : Value)
  /-- A name leads to nothing that can be used. -/
  | missingReference (id : String) (fault : ReferenceFault)
  /-- A workflow ran without calling anything. -/
  | emptyWorkflow (name : String)
  /-- Some objects of one kind were not taken by the server. -/
  | registration (kind : String) (failures : List String)
  /-- A secret is nowhere to be found. -/
  | secretNotFound (secret : Secret)
  /-- A task did not run to its end. -/
  | runtime (fault : RuntimeFault)
  /-- These settings are blank. -/
  | config (missing : List String)
  /-- A text is not JSON. -/
  | serialization
  /-- A file could not be read or written. -/
  | io (fault : FileFault)

namespace Error

def message : Error → String
  | naming arity =>
    s!"Functions must be named: a function of arity {arity} was declared without a name"
  | validation subject issues =>
    let list := Text.join "; " issues
    s!"invalid {subject}: {list}"
  | arityMismatch target fault =>
    let reason := fault.detail
    s!"wrong inputs for {target}: {reason}"
  | invalidArgument target param source =>
    let reason := source.message
    s!"argument for parameter `{param}` of {target} is not a task output or workflow input: " ++
      reason
  | invalidInput fault =>
    let reason := fault.detail
    s!"invalid input: {reason}"
  | typeMismatch expected value =>
    let type := expected.name
    let text := value.render
    s!"value {text} does not match declared type {type}"
  | missingReference id fault =>
    let detail := fault.detail
    s!"missing reference {id}: {detail}"
  | emptyWorkflow name => s!"Workflow `{name}` contains no tasks or references"
  | registration kind failures =>
    let list := Text.join "; " failures
    s!"error while registering {kind}: {list}"
  | secretNotFound secret =>
    let text := secret.text
    s!"secret {text} does not exist"
  | runtime fault =>
    let detail := fault.detail
    s!"task runtime error: {detail}"
  | config missing =>
    let list := Text.join ", " missing
    s!"configuration error: missing {list}"
  | serialization => "Serialization error"
  | io fault =>
    let text := fault.text
    s!"IO error: {text}"

end Error

def LiteralType.validate (t : LiteralType) (v : Value) : Except Error Unit :=
  if t.accepts v then .ok () else .error (.typeMismatch t v)

/-- Succeeds for a value that is good for a variable of the type. -/
def DeclaredType.validate : DeclaredType → Value → Except Error Unit
  | untyped, _ => .ok ()
  | typed t, v => t.validate v

end TaskGraph
