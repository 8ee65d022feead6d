import TaskGraph.Text.Split

namespace TaskGraph

/-- The variables of an environment by name. -/
structure Environment where
  entries : List (String × String)
  deriving DecidableEq

namespace Environment

/-- Whether a text holds the character that ends texts in an environment. -/
def holdsNul (s : String) : Bool := s.toList.contains '\x00'

/-- Whether there can be a variable of this name and value. -/
def isVariable (name value : String) : Bool :=
  !name.isEmpty && !name.toList.contains '=' && !holdsNul name && !holdsNul value

def line (name value : String) : String := name ++ "=" ++ value

def lines (env : Environment) : List String :=
  (env.entries.filter fun entry => isVariable entry.1 entry.2).map fun entry =>
    line entry.1 entry.2

/-- The value under a name: the rest of the first line that starts with the name and an equals
    sign. The name may hold equals signs of its own, and then leads to what is left of a value that
    goes on in the same way. -/
def get? (env : Environment) (name : String) : Option String :=
  if name.isEmpty || holdsNul name then none
  else env.lines.findSome? (Text.restAfter? (name ++ "="))

end Environment

end TaskGraph
