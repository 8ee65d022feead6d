import TaskGraph.Server.Link
import TaskGraph.Graph

namespace TaskGraph

open Json (Value Number)

/-- The collections of the server, in the order in which they are filled. -/
inductive Collection where
  | tasks
  | workflows
  | launchPlans
  deriving DecidableEq

namespace Collection

def path : Collection → String
  | tasks => "api/v1/tasks"
  | workflows => "api/v1/workflows"
  | launchPlans => "api/v1/launch_plans"

def label : Collection → String
  | tasks => "tasks"
  | workflows => "workflows"
  | launchPlans => "launch plans"

end Collection

/-- An object that can be handed in: its identity and its document. -/
structure Submission where
  id : Identifier
  document : Value
  deriving DecidableEq

def Task.submission (t : Task) : Submission := ⟨t.id, t.toWire⟩

def Graph.submission (g : Graph) : Submission := ⟨g.id, g.toWire⟩

def LaunchPlan.submission (p : LaunchPlan) : Submission := ⟨p.id, p.toWire⟩

/-- What became of one object. -/
inductive SubmitOutcome where
  | registered
  | alreadyRegistered
  | failed (reason : String)
  deriving DecidableEq

namespace SubmitOutcome

/-- The status and the code by which the server says that it has an object already. -/
def conflictStatus : Nat := 409

@[inherit_doc conflictStatus]
def alreadyExistsCode : Int := 6

/-- Whether an answer says that the object was there before: by its status, or by its code together
    with its error text. -/
def isConflict (r : Response) : Bool :=
  r.status == conflictStatus ||
    (match r.body.get? "code" with
      | some (.num (.int code _)) => code == alreadyExistsCode
      | _ => false) &&
    r.errorText?.any (Text.occurs "already exists")

/-- What an answer to a hand-in means. Success is an empty object and nothing else. -/
def ofResponse (r : Response) : SubmitOutcome :=
  if isConflict r then
    .alreadyRegistered
  else if r.succeeded && r.body == .obj [] then
    .registered
  else
    let status := r.status
    let body := r.body.render
    .failed s!"HTTP {status}: {body}"

/-- What the end of a hand-in means. -/
def ofAnswer : Except Error Response → SubmitOutcome
  | .ok r => ofResponse r
  | .error e => .failed e.message

/-- Whether the object is not on the server. -/
def isFailure : SubmitOutcome → Bool
  | failed _ => true
  | _ => false

end SubmitOutcome

/-- What became of the object of an identity. -/
structure SubmitStatus where
  id : Identifier
  outcome : SubmitOutcome
  deriving DecidableEq

namespace SubmitStatus

def text (s : SubmitStatus) : String :=
  let id := s.id.text
  match s.outcome with
  | .registered => s!"Registered {id}"
  | .alreadyRegistered => s!"{id} already registered"
  | .failed reason => s!"Error while registering {id}: {reason}"

def level (s : SubmitStatus) : Level := if s.outcome.isFailure then .error else .info

end SubmitStatus

/-- A hand-in that has been started. -/
structure OpenSubmit where
  submission : Submission
  reply : Reply

namespace OpenSubmit

def status (s : OpenSubmit) : SubmitStatus := ⟨s.submission.id, .ofAnswer s.reply.answer⟩

/-- Deals with the end of a hand-in. -/
def settle {ω : Type} (path : String) (s : OpenSubmit) : Routine (Link ω) Unit := do
  Link.note (.submitDone path s.submission.document)
  Routine.log s.status.level s.status.text

/-- Starts to hand in an object, and deals with the end if that is there at once. -/
def start {ω : Type} (server : Server ω) (path : String) (submission : Submission) :
    Routine (Link ω) OpenSubmit := do
  let reply ← Link.submit server path submission.document
  let s : OpenSubmit := ⟨submission, reply⟩
  if reply.round = 0 then
    s.settle path
  return s

end OpenSubmit

/-- Hands in all objects of a collection, each to its end whatever becomes of the others. The answer
    has one status for each, in their order; if any failed, the failures are the error. -/
def Collection.submit {ω : Type} (collection : Collection) (server : Server ω)
    (submissions : List Submission) : Routine (Link ω) (List SubmitStatus) := do
  let started ← submissions.mapM (OpenSubmit.start server collection.path)
  (arrivalOrder (·.reply.round) started).forM (OpenSubmit.settle collection.path)
  let statuses := started.map OpenSubmit.status
  let failures := statuses.filter (·.outcome.isFailure)
  unless failures.isEmpty do
    throw (.registration collection.label (failures.map SubmitStatus.text))
  return statuses

end TaskGraph
