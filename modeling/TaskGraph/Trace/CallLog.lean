import TaskGraph.Trace.Binding
import TaskGraph.Text.Split

namespace TaskGraph

/-- One captured call: the target and its inputs with their bindings. -/
structure Call where
  target : String
  inputs : List (String × Binding)
  deriving DecidableEq

/-- The id of the node for the call to `target` with this index among the calls to it. -/
def nodeId (target : String) (index : Nat) : String := target ++ "-" ++ toString index

/-- The captured calls, in one group for each target and in the order of the first calls. -/
structure CallLog where
  groups : List (String × List Call)
  deriving DecidableEq

namespace CallLog

/-- The log without calls. -/
def empty : CallLog := ⟨[]⟩

/-- The log after all its calls are dropped. -/
def clear (_ : CallLog) : CallLog := .empty

/-- The calls to one target, oldest first. -/
def group (log : CallLog) (target : String) : List Call := (log.groups.lookup target).getD []

/-- Groups with one more call, at the end of the group of its target or in a new last group. -/
def add (call : Call) : List (String × List Call) → List (String × List Call)
  | [] => [(call.target, [call])]
  | (target, calls) :: groups =>
    if target = call.target then (target, calls ++ [call]) :: groups
    else (target, calls) :: add call groups

/-- Appends a call; its index among the calls to its target comes with the new log. -/
def record (log : CallLog) (target : String) (inputs : List (String × Binding)) : Nat × CallLog :=
  ((log.group target).length, ⟨add ⟨target, inputs⟩ log.groups⟩)

def calls (log : CallLog) : List Call := log.groups.flatMap fun group => group.2

def size (log : CallLog) : Nat := log.calls.length

def isEmpty (log : CallLog) : Bool := log.size == 0

/-- The calls with their node ids, group by group. -/
def entries (log : CallLog) : List (String × Call) :=
  log.groups.flatMap fun (target, calls) =>
    calls.mapIdx fun index call => (nodeId target index, call)

theorem lookup_add (call : Call) (groups : List (String × List Call)) (target : String) :
    (add call groups).lookup target =
      if target = call.target then some ((groups.lookup target).getD [] ++ [call])
      else groups.lookup target := by
  induction groups with
  | nil => grind [add]
  | cons group rest ih => grind [add]

/-- A call is the last of its group, and the other groups are as they were. -/
theorem group_record (log : CallLog) (target : String) (inputs : List (String × Binding))
    (t : String) :
    (log.record target inputs).2.group t =
      if t = target then log.group t ++ [⟨target, inputs⟩] else log.group t := by
  simp only [record, group, lookup_add]
  split <;> rfl

theorem size_record (log : CallLog) (target : String) (inputs : List (String × Binding)) :
    (log.record target inputs).2.size = log.size + 1 := by
  simp only [record, size, calls]
  induction log.groups with
  | nil => simp [add]
  | cons group rest ih =>
    simp only [add]
    split <;> simp_all <;> omega

theorem length_entries (log : CallLog) : log.entries.length = log.size := by
  simp [entries, size, calls, List.length_flatMap]

/-- The target and the index that a node id is made of, for an index that the log holds. The index
    must be spelled as `nodeId` spells it. -/
def locate? (log : CallLog) (node : String) : Option (String × Nat) := do
  let (target, text) ← Text.splitLast? '-' node
  let index ← (List.range (log.group target).length).find? fun i => toString i == text
  return (target, index)

end CallLog

end TaskGraph
