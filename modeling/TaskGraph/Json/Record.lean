import TaskGraph.Json.Value

namespace TaskGraph.Json.Value

/-- The values at these field names, for a value that is written as a record with those fields: as
    an object, where other fields are passed over, or as an array of the fields in order, where
    fields at the end may be left off. -/
def record? (names : List String) : Value → Option (List (Option Value))
  | .obj fields => some (names.map fun name => fields.lookup name)
  | .arr items =>
    if items.length ≤ names.length then
      some (items.map some ++ List.replicate (names.length - items.length) none)
    else
      none
  | _ => none

/-- The name of a constructor without arguments, which may also stand as the only key of an object,
    with null under it. -/
def variant? : Value → Option String
  | .str name => some name
  | .obj [(name, .null)] => some name
  | _ => none

/-- A field that may be missing or null. -/
def optional? {α : Type} (read : Value → Option α) : Option Value → Option (Option α)
  | none | some .null => some none
  | some v => (read v).map some

end TaskGraph.Json.Value
