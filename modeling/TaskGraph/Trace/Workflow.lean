import TaskGraph.Declaration.Task
import TaskGraph.Trace.Tracer

namespace TaskGraph

/-- Whether a body is written to be awaited. It runs the same way. -/
inductive Mode where
  | sync
  | async
  deriving DecidableEq

/-- What is left to run of a workflow body. It can make calls and look at their outcomes, and may go
    on after a failure; the notes outlive the run. -/
inductive Body (σ : Type) where
  /-- The end: the notes, and the result or the failure. -/
  | finish (notes : σ) (result : Except Error Argument)
  /-- A call, and how to go on from its outcome. -/
  | call (target : String) (args : Arguments) (next : Except Error Binding → Body σ)

namespace Body

/-- Runs a body to its end. The answer is its result and the trace with all calls it made. -/
def run {σ : Type} (tracer : Tracer) : Body σ → Routine σ (Argument × Tracer)
  | finish notes result => do
    set notes
    return (← Routine.ofExcept result, tracer)
  | call target args next => do
    let (outcome, after) ← Routine.ofLogged ((Tracer.call target args).runFrom tracer)
    (next outcome).run after

end Body

/-- A workflow: its header and its body, which gets the promises of the workflow inputs. -/
structure Workflow (σ : Type) where
  header : WorkflowHeader
  mode : Mode
  body : List Binding → σ → Body σ

namespace Workflow

def name {σ : Type} (w : Workflow σ) : String := w.header.name

/-- The binding of the output to what the body returned, once the body has made its calls. -/
def bindResult {σ : Type} (w : Workflow σ) (tracer : Tracer) (returned : Argument) :
    Except Error Binding :=
  let output := w.header.interface.output
  let name := w.name
  let checked : Except Error Binding := do
    let binding ← returned.bind output.type
    tracer.accept binding
    return binding
  checked.mapError (.invalidArgument s!"workflow `{name}`" output.name)

/-- Runs the workflow once and answers the binding of its output and the calls it made. The log
    that is handed in is cleared first, so calls of an earlier run never reach this one. A workflow
    that calls nothing has no graph. -/
def trace {σ : Type} (w : Workflow σ) (callables : Callables) (calls : CallLog) :
    Routine σ (Binding × CallLog) := do
  let names := w.header.interface.inputNames
  let tracer : Tracer := { callables, inputs := names, calls := calls.clear }
  let (returned, tracer) ← (w.body (names.map Binding.ofInput) (← get)).run tracer
  if tracer.calls.isEmpty then
    throw (.emptyWorkflow w.name)
  let result ← Routine.ofExcept (w.bindResult tracer returned)
  let name := w.name
  let count := tracer.calls.size
  Routine.log .debug s!"traced workflow {name} with {count} calls"
  return (result, tracer.calls)

end Workflow

end TaskGraph
