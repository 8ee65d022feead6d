import TaskGraph.Routine

namespace TaskGraph

/-- One thing found. Only errors stand in the way of a declaration. -/
inductive Finding where
  | error (text : String)
  | warning (text : String)
  deriving DecidableEq

namespace Finding

def error? : Finding → Option String
  | error text => some text
  | warning _ => none

def warning? : Finding → Option String
  | error _ => none
  | warning text => some text

end Finding

/-- The things found, in the order in which they were. -/
abbrev Report : Type := List Finding

namespace Report

def errors (report : Report) : List String := report.filterMap Finding.error?

def warnings (report : Report) : List String := report.filterMap Finding.warning?

def passes (report : Report) : Bool := report.errors.isEmpty

/-- Logs the warnings, and fails with all errors when there are any. -/
def conclude (report : Report) (subject : String) : Action Unit := do
  report.warnings.forM fun text => Action.log .warn s!"{subject}: {text}"
  unless report.passes do
    throw (.validation subject report.errors)

end Report

end TaskGraph
