import TaskGraph.Files.Contents
import TaskGraph.Files.Tree
import TaskGraph.Registry.Basic

namespace TaskGraph

open Json (Value)

/-- The files that a container sees, and the inputs of every run of a task body so far. -/
structure Workspace where
  files : FileTree
  runs : List (List Value)

/-- The values of inputs, each from the file of its name in a directory. -/
def readInputs (files : FileTree) (inputDir : String) : List Variable → Except Error (List Value)
  | [] => .ok []
  | input :: inputs => do
    let path := Path.join inputDir input.name
    let raw ← (files.readText path).mapError fun fault =>
      .runtime (.unreadable input.name path fault)
    let value ← input.type.decode raw
    return value :: (← readInputs files inputDir inputs)

/-- The files after a value was written to the file of an output in a directory. -/
def writeOutput (files : FileTree) (output : Variable) (value : Value) (outputDir : String) :
    Except Error FileTree := do
  let contents ← output.type.encode value
  (files.writeText (Path.join outputDir output.name) contents).mapError .io

/-- Runs a task body once, and writes that down. -/
def TaskBody.invoke (body : TaskBody) (inputs : List Value) : Routine Workspace Value := do
  modify fun w => { w with runs := w.runs ++ [inputs] }
  Routine.ofExcept (body.run inputs)

/-- Runs the task of a name on the input files of one directory, and writes its result to another
    one. The answer is the result, and nothing is written before there is one. -/
def Registry.execute (registry : Registry) (name inputDir outputDir : String) :
    Routine Workspace Value := do
  let some registered := registry.task? name
    | throw (.runtime (.unknownTask name))
  let interface := registered.task.interface
  let inputs ← Routine.ofExcept (readInputs (← get).files inputDir interface.inputs)
  let count := inputs.length
  Routine.log .info s!"running task {name} with {count} inputs"
  let result ← registered.body.invoke inputs
  let workspace ← get
  let files ← Routine.ofExcept (writeOutput workspace.files interface.output result outputDir)
  set { workspace with files }
  let path := Path.join outputDir interface.output.name
  Routine.log .debug s!"wrote {path}"
  return result

end TaskGraph
