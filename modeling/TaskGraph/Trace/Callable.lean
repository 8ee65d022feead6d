import TaskGraph.Trace.Binding
import TaskGraph.Declaration.Interface

namespace TaskGraph

/-- The arguments of one call, in order or by name. -/
inductive Arguments where
  | positional (args : List Argument)
  | keyword (args : List (String × Argument))
  deriving DecidableEq

def Arguments.isEmpty : Arguments → Bool
  | positional args => args.isEmpty
  | keyword args => args.isEmpty

/-- Which arguments a callable understands. -/
inductive Convention where
  /-- As many positional arguments as there are inputs. -/
  | positional
  /-- Positional arguments, or one for each input by name. -/
  | positionalOrKeyword
  /-- One argument for each input by name. -/
  | keyword
  deriving DecidableEq

namespace Convention

/-- Whether positional arguments are understood. -/
def takesPositional : Convention → Bool
  | keyword => false
  | _ => true

/-- Whether arguments by name are understood. -/
def takesKeyword : Convention → Bool
  | positional => false
  | _ => true

end Convention

/-- What a callable stands for. -/
inductive CallableKind where
  | task
  | taskReference
  | launchPlanReference
  deriving DecidableEq

def CallableKind.label : CallableKind → String
  | task => "task"
  | taskReference => "task reference"
  | launchPlanReference => "launch plan reference"

/-- Something that can be called while a workflow is traced. -/
structure Callable where
  name : String
  kind : CallableKind
  interface : Interface
  convention : Convention
  deriving DecidableEq

namespace Callable

def label (c : Callable) : String :=
  let kind := c.kind.label
  let name := c.name
  s!"{kind} `{name}`"

/-- The first name that is given twice, at its second occurrence. -/
def repeatedName? : List String → Option String
  | names => go [] names
where
  /-- The first of the names that is among those seen or comes twice. -/
  go (seen : List String) : List String → Option String
    | [] => none
    | name :: names => if name ∈ seen then some name else go (name :: seen) names

/-- The arguments in the order of the inputs, or what is wrong with their number or names. -/
def order (c : Callable) (args : Arguments) : Except ArityFault (List Argument) :=
  let names := c.interface.inputNames
  if names.isEmpty then
    if args.isEmpty then .ok [] else .error .takesNone
  else
    match args with
    | .positional args =>
      if ¬c.convention.takesPositional then .error (.namesOnly names)
      else if args.length ≠ names.length then .error (.count names.length args.length)
      else .ok args
    | .keyword args =>
      if ¬c.convention.takesKeyword then .error (.positionsOnly names.length)
      else
        let given := args.map (·.1)
        match repeatedName? given with
        | some name => .error (.repeated name)
        | none =>
          if given.all (· ∈ names) && names.all (· ∈ given) then
            .ok (names.eraseDups.filterMap fun name => args.lookup name)
          else
            .error (.wrongNames names)

/-- Binds each argument to the input at its position. -/
def bindInputs (label : String) : List Argument → List Variable →
    Except Error (List (String × Binding))
  | argument :: arguments, input :: inputs => do
    let binding ← (argument.bind input.type).mapError (.invalidArgument label input.name)
    return (input.name, binding) :: (← bindInputs label arguments inputs)
  | _, _ => .ok []

/-- The inputs with what the arguments bind them to, in the order of the inputs. -/
def bind (c : Callable) (args : Arguments) : Except Error (List (String × Binding)) := do
  let arguments ← (c.order args).mapError (.arityMismatch c.label)
  bindInputs c.label arguments c.interface.inputs

end Callable

/-- What can be called, by name; no name occurs twice. -/
structure Callables where
  entries : List Callable
  deriving DecidableEq

namespace Callables

def empty : Callables := ⟨[]⟩

def get? (cs : Callables) (name : String) : Option Callable :=
  cs.entries.find? (·.name == name)

/-- A list with `c` in the place of the entry of its name, or at the end. -/
def put (c : Callable) : List Callable → List Callable
  | [] => [c]
  | d :: ds => if d.name = c.name then c :: ds else d :: put c ds

/-- Adds a callable, or replaces the one of its name. -/
def insert (cs : Callables) (c : Callable) : Callables := ⟨put c cs.entries⟩

theorem find?_put (c : Callable) (name : String) (cs : List Callable) :
    (put c cs).find? (·.name == name) =
      if c.name = name then some c else cs.find? (·.name == name) := by
  induction cs with
  | nil => grind [put]
  | cons d ds ih => grind [put]

/-- The name of an inserted callable leads to it, every other name where it led before. -/
theorem get?_insert (cs : Callables) (c : Callable) (name : String) :
    (cs.insert c).get? name = if c.name = name then some c else cs.get? name :=
  find?_put c name cs.entries

def size (cs : Callables) : Nat := cs.entries.length

end Callables

end TaskGraph
