import TaskGraph.Text.Split

namespace TaskGraph.Path

/-- Whether a path starts at the root. -/
def isAbsolute (path : String) : Bool := path.toList.head? == some '/'

/-- The path `part` seen from `base`. An absolute part replaces the base; else one slash goes
    between them, unless the base is empty or ends in one. -/
def join (base part : String) : String :=
  if isAbsolute part then part
  else if base.isEmpty || base.toList.getLast? == some '/' then base ++ part
  else base ++ "/" ++ part

/-- The steps of a path: what stands between its slashes. Nothing is resolved here, since `.`, `..`
    and empty steps only mean something to a file system. -/
def steps (path : String) : List String := Text.split '/' path

end TaskGraph.Path
