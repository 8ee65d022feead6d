import TaskGraph.Routine

namespace TaskGraph

open Json (Value)

/-- An answer of the server. -/
structure Response where
  status : Nat
  body : Value
  deriving DecidableEq

namespace Response

def succeeded (r : Response) : Bool := 200 ≤ r.status && r.status < 300

/-- The error text of the body, when it has an error field at all. -/
def errorText? (r : Response) : Option String :=
  (r.body.get? "error").map fun e => e.str?.getD "unknown error"

end Response

/-- What becomes of one call: the round in which it finishes, which need not be that of the calls
    made together with it, and its answer or failure. -/
structure Reply where
  round : Nat
  answer : Except Error Response

/-- The two operations of a server with states of type `ω`. -/
structure Server (ω : Type) where
  /-- Asks for the document at a path. -/
  fetch : String → ω → Reply × ω
  /-- Hands in a document at a path. -/
  submit : String → Value → ω → Reply × ω

/-- Something that passed between this library and the server. -/
inductive Exchange where
  | fetchSent (path : String)
  | fetchDone (path : String)
  | submitSent (path : String) (body : Value)
  | submitDone (path : String) (body : Value)
  deriving DecidableEq

/-- The state of a server and what was exchanged with it, oldest first. -/
structure Link (ω : Type) where
  state : ω
  exchanges : List Exchange

namespace Link

def note {ω : Type} (e : Exchange) : Routine (Link ω) Unit :=
  modify fun link => { link with exchanges := link.exchanges ++ [e] }

def fetch {ω : Type} (server : Server ω) (path : String) : Routine (Link ω) Reply := do
  note (.fetchSent path)
  let link ← get
  let (reply, state) := server.fetch path link.state
  set { link with state }
  return reply

def submit {ω : Type} (server : Server ω) (path : String) (body : Value) :
    Routine (Link ω) Reply := do
  note (.submitSent path body)
  let link ← get
  let (reply, state) := server.submit path body link.state
  set { link with state }
  return reply

@[simp] theorem value_runFrom_note {ω : Type} (e : Exchange) (link : Link ω) :
    ((note e).runFrom link).value = (.ok (), ⟨link.state, link.exchanges ++ [e]⟩) := rfl

/-- A request is sent whatever its answer will be. -/
@[simp] theorem value_runFrom_fetch {ω : Type} (server : Server ω) (path : String)
    (link : Link ω) :
    ((fetch server path).runFrom link).value =
      (.ok (server.fetch path link.state).1,
        ⟨(server.fetch path link.state).2, link.exchanges ++ [.fetchSent path]⟩) := rfl

@[inherit_doc value_runFrom_fetch, simp]
theorem value_runFrom_submit {ω : Type} (server : Server ω) (path : String) (body : Value)
    (link : Link ω) :
    ((submit server path body).runFrom link).value =
      (.ok (server.submit path body link.state).1,
        ⟨(server.submit path body link.state).2, link.exchanges ++ [.submitSent path body]⟩) := rfl

end Link

/-- The order in which calls still open after the first round finish: by round, and within a round
    as they were started. -/
def arrivalOrder {α : Type} (round : α → Nat) (calls : List α) : List α :=
  (calls.filter fun c => 0 < round c).mergeSort fun a b => round a ≤ round b

theorem arrivalOrder_perm {α : Type} (round : α → Nat) (calls : List α) :
    (arrivalOrder round calls).Perm (calls.filter fun c => 0 < round c) :=
  List.mergeSort_perm _ _

/-- No call is lost: each one finishes at once or in its turn. -/
theorem atOnce_append_arrivalOrder_perm {α : Type} (round : α → Nat) (calls : List α) :
    (calls.filter (round · = 0) ++ arrivalOrder round calls).Perm calls := by
  have hlate : calls.filter (fun c => 0 < round c) =
      calls.filter (fun c => !decide (round c = 0)) := by
    apply List.filter_congr
    intro c _
    simp [Nat.pos_iff_ne_zero]
  have hperm := (arrivalOrder_perm round calls).append_left (calls.filter (round · = 0))
  rw [hlate] at hperm
  exact hperm.trans (List.filter_append_perm _ _)

end TaskGraph
