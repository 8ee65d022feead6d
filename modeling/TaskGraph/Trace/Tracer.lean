import TaskGraph.Trace.CallLog
import TaskGraph.Trace.Callable
import TaskGraph.Routine

namespace TaskGraph

/-- A workflow run while it is being traced. -/
structure Tracer where
  callables : Callables
  inputs : List String
  calls : CallLog
  deriving DecidableEq

namespace Tracer

/-- Whether a promise names a workflow input, or the output of a call that has been made. So edges
    only point backwards. -/
def admitsPromise (t : Tracer) (p : Promise) : Bool :=
  if p.node = startNode then
    p.var ∈ t.inputs
  else
    match t.calls.locate? p.node with
    | some (target, _) => (t.callables.get? target).any fun c => c.interface.output.name == p.var
    | none => false

/-- Whether a binding can be an edge of the graph traced so far. -/
def admits (t : Tracer) : Binding → Bool
  | .promise p => t.admitsPromise p
  | .constant .. => true

/-- Succeeds for a binding that can be an edge. -/
def accept (t : Tracer) : Binding → Except Error Unit
  | .promise p =>
    if t.admitsPromise p then .ok () else .error (.invalidInput (.foreignPromise p.node p.var))
  | .constant .. => .ok ()

/-- Succeeds when every input of a call can be an edge. -/
def acceptInputs (t : Tracer) (label : String) : List (String × Binding) → Except Error Unit
  | [] => .ok ()
  | (param, binding) :: inputs => do
    (t.accept binding).mapError (.invalidArgument label param)
    t.acceptInputs label inputs

/-- The callable of this name and the inputs that a call to it with these arguments binds. -/
def prepare (t : Tracer) (target : String) (args : Arguments) :
    Except Error (Callable × List (String × Binding)) := do
  let some callable := t.callables.get? target
    | throw (.missingReference target .notCallable)
  let inputs ← callable.bind args
  t.acceptInputs callable.label inputs
  return (callable, inputs)

/-- Makes a call: its inputs are bound and checked, and it enters the log. The answer is the
    promise of its output. -/
def call (target : String) (args : Arguments) : Routine Tracer Binding := do
  let tracer ← get
  let (callable, inputs) ← Routine.ofExcept (tracer.prepare target args)
  let (index, calls) := tracer.calls.record target inputs
  set { tracer with calls }
  let node := nodeId target index
  Routine.log .debug s!"captured call {node}"
  return .promise ⟨node, callable.interface.output.name⟩

end Tracer

end TaskGraph
