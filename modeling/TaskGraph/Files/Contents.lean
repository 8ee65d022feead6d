import TaskGraph.Error
import TaskGraph.Json.Reader
import TaskGraph.Text.Blank

namespace TaskGraph.DeclaredType

open Json (Value)

/-- The value in the contents of an input file: a text as it stands, and any other value from its
    JSON. An untyped file that is not JSON holds its own text. -/
def decode (t : DeclaredType) (raw : String) : Except Error Value :=
  match t with
  | .untyped => .ok ((Value.parse? raw).getD (.str raw))
  | .typed .text => .ok (.str raw)
  | .typed t => do
    let some value := Value.parse? (Text.trim raw)
      | throw .serialization
    t.validate value
    return value

/-- The contents of an output file for a value: a text as it is, and any other value as JSON. -/
def encode (t : DeclaredType) (value : Value) : Except Error String := do
  t.validate value
  match t, value with
  | .typed .text, .str text => return text
  | _, _ => return value.render

end TaskGraph.DeclaredType
