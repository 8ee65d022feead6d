import TaskGraph.Server.Delivery
import TaskGraph.Server.Link
import TaskGraph.Registry.Basic

namespace TaskGraph

open Json (Value)

namespace Reference

/-- The interface in an answer to the fetch of the reference's metadata. -/
def readAnswer (r : Reference) (answer : Except Error Response) : Action RemoteInterface := do
  let id := r.id.text
  let response ← Action.ofExcept answer
  if let some message := response.errorText? then
    let body := response.body.render
    Action.log .error s!"error while retrieving {id}: {body}"
    throw (.missingReference id (.refused message))
  unless response.succeeded do
    throw (.missingReference id (.status response.status))
  let path := match r.kind with
    | .task => ["closure", "compiled_task", "template"]
    | .launchPlan => ["closure"]
  let some document := response.body.at? path
    | throw (.missingReference id (match r.kind with
        | .task => .noTemplate
        | .launchPlan => .noClosure))
  Action.ofExcept (RemoteInterface.ofDocument r.kind document)

/-- The interface in an answer, which is logged when there is one. -/
def acceptAnswer (r : Reference) (answer : Except Error Response) : Action RemoteInterface := do
  let remote ← r.readAnswer answer
  let id := r.id.text
  let names := Text.join ", " remote.interface.inputNames
  Action.log .debug s!"resolved {id} with inputs [{names}]"
  return remote

/-- Fetches the interface of one reference and fills it in. -/
def resolve {ω : Type} (server : Server ω) (r : Reference) : Routine (Link ω) Reference := do
  let reply ← Link.fetch server r.documentPath
  Link.note (.fetchDone r.documentPath)
  let remote ← Routine.ofAction (r.acceptAnswer reply.answer)
  Routine.ofExcept (r.fillIn remote)

end Reference

/-- A fetch that has been started, with its place among the fetches of its run. -/
structure OpenFetch where
  position : Nat
  reference : Reference
  reply : Reply

/-- What became of the fetches of a run, in the order in which they were started. One that is open
    has no result. -/
abbrev FetchResults : Type := List (Option (Except Error Unit))

/-- Something done over the link while references are filled in. -/
def overLink {ω α : Type} (p : Routine (Link ω) α) : Routine (Registry × Link ω) α :=
  Routine.onPart (·.2) (fun s link => (s.1, link)) p

@[simp] theorem value_runFrom_overLink {ω α : Type} (p : Routine (Link ω) α)
    (s : Registry × Link ω) :
    ((overLink p).runFrom s).value =
      ((p.runFrom s.2).value.1, s.1, (p.runFrom s.2).value.2) := rfl

namespace OpenFetch

/-- Deals with an answer: its interface goes into the registry. -/
def settle {ω : Type} (f : OpenFetch) : Routine (Registry × Link ω) Unit := do
  overLink (Link.note (.fetchDone f.reference.documentPath))
  let remote ← Routine.ofAction (f.reference.acceptAnswer f.reply.answer)
  let (registry, link) ← get
  let registry ← Routine.ofExcept (registry.fillIn f.reference.key remote)
  set (registry, link)

/-- Deals with an answer and writes down the result. The first failure among the results that
    count by then ends the run. -/
def conclude {ω : Type} (delivery : Delivery) (results : FetchResults) (f : OpenFetch) :
    Routine (Registry × Link ω) FetchResults := do
  let result ← Routine.attempt f.settle
  let results := results.set f.position (some result)
  (delivery.delivered results).forM Routine.ofExcept
  return results

/-- Starts the fetch for a reference after those of the same run that have been started, and deals
    with its answer if that is there at once. -/
def start {ω : Type} (server : Server ω) (delivery : Delivery)
    (started : List OpenFetch × FetchResults) (reference : Reference) :
    Routine (Registry × Link ω) (List OpenFetch × FetchResults) := do
  let (fetches, results) := started
  let reply ← overLink (Link.fetch server reference.documentPath)
  let f : OpenFetch := ⟨fetches.length, reference, reply⟩
  let results := results ++ [none]
  if reply.round = 0 then
    return (fetches ++ [f], ← f.conclude delivery results)
  else
    return (fetches ++ [f], results)

end OpenFetch

/-- Fills in every interface that is not known, and answers how many there were. The first failure
    that counts ends the run: what was filled in before stays, and what is open is left alone. -/
def Registry.resolve {ω : Type} (server : Server ω) : Routine (Registry × Link ω) Nat := do
  let pending := (← get).1.unresolved
  let delivery := Delivery.ofCount pending.length
  let (fetches, results) ← pending.foldlM (OpenFetch.start server delivery) ([], [])
  let _ ← (arrivalOrder (·.reply.round) fetches).foldlM (OpenFetch.conclude delivery) results
  return pending.length

end TaskGraph
