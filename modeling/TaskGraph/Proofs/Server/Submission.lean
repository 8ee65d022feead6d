import Mathlib.Data.List.Forall2
import TaskGraph.Proofs.Server.Answers

namespace TaskGraph

open Json (Value)
open Routine

variable {ω : Type}

namespace Exchange

def submitSent? : Exchange → Option (String × Value)
  | submitSent path body => some (path, body)
  | _ => none

def submitDone? : Exchange → Option (String × Value)
  | submitDone path body => some (path, body)
  | _ => none

def isSubmit : Exchange → Bool
  | submitSent .. | submitDone .. => true
  | _ => false

end Exchange

/-- Exchanges that hand in each of these documents once and see the end of every hand-in. -/
structure Submitted (path : String) (documents : List Value) (events : List Exchange) : Prop where
  isSubmit : ∀ e ∈ events, e.isSubmit
  sent_eq : events.filterMap Exchange.submitSent? = documents.map (path, ·)
  done_perm : (events.filterMap Exchange.submitDone?).Perm (documents.map (path, ·))

/-- The hand-in of an object, and the server after. -/
def Server.take (server : Server ω) (path : String) (submission : Submission) (state : ω) :
    OpenSubmit × ω :=
  let replied := server.submit path submission.document state
  (⟨submission, replied.1⟩, replied.2)

/-- The hand-ins of objects one after the other, and the server after. -/
def Server.takeAll (server : Server ω) (path : String) : List Submission → ω → List OpenSubmit × ω
  | [], state => ([], state)
  | submission :: rest, state =>
    let first := server.take path submission state
    let others := server.takeAll path rest first.2
    (first.1 :: others.1, others.2)

theorem Server.map_takeAll (server : Server ω) (path : String) (submissions : List Submission)
    (state : ω) : (server.takeAll path submissions state).1.map (·.submission) = submissions := by
  induction submissions generalizing state with
  | nil => rfl
  | cons submission rest ih => exact congrArg (submission :: ·) (ih _)

/-- The answers to hand-ins, in the order in which they are started. -/
def Server.answers (server : Server ω) (path : String) (submissions : List Submission)
    (state : ω) : List (Except Error Response) :=
  (server.takeAll path submissions state).1.map (·.reply.answer)

theorem Server.reports_answers (server : Server ω) (path : String)
    (submissions : List Submission) (state : ω) :
    List.Forall₂ SubmitStatus.Reports
      ((server.takeAll path submissions state).1.map OpenSubmit.status)
      (server.answers path submissions state) := by
  rw [answers, List.forall₂_map_left_iff, List.forall₂_map_right_iff, List.forall₂_same]
  exact fun call _ => call.reports_status

namespace OpenSubmit

/-- What the end of a hand-in leaves over the link. -/
def ending (path : String) (s : OpenSubmit) : Exchange := .submitDone path s.submission.document

/-- What the start of a hand-in leaves over the link. -/
def opening (path : String) (s : OpenSubmit) : List Exchange :=
  .submitSent path s.submission.document :: if s.reply.round = 0 then [s.ending path] else []

theorem value_runFrom_settle (path : String) (s : OpenSubmit) (link : Link ω) :
    ((s.settle path).runFrom link).value =
      (.ok (), ⟨link.state, link.exchanges ++ [s.ending path]⟩) := rfl

theorem value_runFrom_start (server : Server ω) (path : String) (submission : Submission)
    (link : Link ω) :
    ((start server path submission).runFrom link).value =
      (.ok (server.take path submission link.state).1,
        ⟨(server.take path submission link.state).2,
          link.exchanges ++ (server.take path submission link.state).1.opening path⟩) := by
  unfold start opening Server.take
  rw [runFrom_bind, Logged.value_bind, Link.value_runFrom_submit]
  dsimp only
  split
  · rw [runFrom_bind, Logged.value_bind, value_runFrom_settle]
    simp
  · simp

/-- Objects are handed in one after the other, and no end is waited for. -/
theorem value_runFrom_mapM_start (server : Server ω) (path : String)
    (submissions : List Submission) (link : Link ω) :
    ((submissions.mapM (start server path)).runFrom link).value =
      (.ok (server.takeAll path submissions link.state).1,
        ⟨(server.takeAll path submissions link.state).2, link.exchanges ++
          (server.takeAll path submissions link.state).1.flatMap (opening path)⟩) := by
  induction submissions generalizing link with
  | nil => simp [Server.takeAll]
  | cons submission rest ih =>
    rw [List.mapM_cons, runFrom_bind, Logged.value_bind, value_runFrom_start]
    dsimp only
    rw [runFrom_bind, Logged.value_bind, ih]
    simp [Server.takeAll]

theorem value_runFrom_forM_settle (path : String) (calls : List OpenSubmit) (link : Link ω) :
    ((calls.forM (settle path)).runFrom link).value =
      (.ok ⟨⟩, ⟨link.state, link.exchanges ++ calls.map (ending path)⟩) := by
  induction calls generalizing link with
  | nil => simp
  | cons s rest ih =>
    have hcons : (List.forM (s :: rest) (settle path) : Routine (Link ω) PUnit) =
        s.settle path >>= fun _ => rest.forM (settle path) := rfl
    rw [hcons, runFrom_bind, Logged.value_bind, value_runFrom_settle]
    dsimp only
    rw [ih]
    simp

theorem filterMap_opening_sent (path : String) (calls : List OpenSubmit) :
    (calls.flatMap (opening path)).filterMap Exchange.submitSent? =
      calls.map fun s => (path, s.submission.document) := by
  induction calls with
  | nil => rfl
  | cons s rest ih =>
    rw [List.flatMap_cons, List.filterMap_append, ih]
    unfold opening
    split <;> rfl

/-- Among the starts are the ends of the hand-ins that end at once. -/
theorem filterMap_opening_done (path : String) (calls : List OpenSubmit) :
    (calls.flatMap (opening path)).filterMap Exchange.submitDone? =
      (calls.filter (·.reply.round = 0)).map fun s => (path, s.submission.document) := by
  induction calls with
  | nil => rfl
  | cons s rest ih =>
    rw [List.flatMap_cons, List.filterMap_append, ih, List.filter_cons]
    unfold opening
    by_cases hzero : s.reply.round = 0
    · simp only [hzero, if_pos, decide_true]
      rfl
    · simp only [hzero, decide_false]
      rfl

theorem filterMap_ending_done (path : String) (calls : List OpenSubmit) :
    (calls.map (ending path)).filterMap Exchange.submitDone? =
      calls.map fun s => (path, s.submission.document) := by
  rw [List.filterMap_map, ← List.filterMap_eq_map]
  rfl

/-- Between them, the starts and the later ends hand in each object once and end each hand-in. -/
theorem submitted_of_arrivalOrder (path : String) (calls : List OpenSubmit) :
    Submitted path (calls.map (·.submission.document))
      (calls.flatMap (opening path) ++ (arrivalOrder (·.reply.round) calls).map (ending path)) where
  isSubmit e he := by
    rcases List.mem_append.1 he with he | he
    · obtain ⟨s, -, hopening⟩ := List.mem_flatMap.1 he
      unfold opening at hopening
      rcases List.mem_cons.1 hopening with rfl | hending
      · rfl
      · split at hending
        · rw [List.mem_singleton.1 hending]
          rfl
        · cases hending
    · obtain ⟨s, -, rfl⟩ := List.mem_map.1 he
      rfl
  sent_eq := by
    have hlater : ((arrivalOrder (·.reply.round) calls).map (ending path)).filterMap
        Exchange.submitSent? = [] := by
      rw [List.filterMap_map, List.filterMap_eq_nil_iff]
      intro s _
      rfl
    rw [List.filterMap_append, filterMap_opening_sent, hlater, List.append_nil, List.map_map]
    rfl
  done_perm := by
    rw [List.filterMap_append, filterMap_opening_done, filterMap_ending_done, ← List.map_append,
      List.map_map]
    exact (atOnce_append_arrivalOrder_perm _ calls).map _

end OpenSubmit

/-- What it is to hand in objects at a path: one status for each, in their order and by the server's
    answers, and everything that was begun has ended. -/
structure Stage (server : Server ω) (path : String) (submissions : List Submission)
    (before : Link ω) (statuses : List SubmitStatus) (after : Link ω) : Prop where
  ids_eq : statuses.map (·.id) = submissions.map (·.id)
  reports : List.Forall₂ SubmitStatus.Reports statuses
    (server.answers path submissions before.state)
  statuses_eq : statuses = (server.takeAll path submissions before.state).1.map OpenSubmit.status
  state_eq : after.state = (server.takeAll path submissions before.state).2
  exchanged : ∃ events, after.exchanges = before.exchanges ++ events ∧
    Submitted path (submissions.map (·.document)) events

/-- A collection is handed in by starting all hand-ins and dealing with the later ends as they
    arrive. -/
theorem Collection.value_runFrom_submit (collection : Collection) (server : Server ω)
    (submissions : List Submission) (before : Link ω) :
    ((collection.submit server submissions).runFrom before).value =
      let taken := server.takeAll collection.path submissions before.state
      let statuses := taken.1.map OpenSubmit.status
      (if failures statuses = [] then .ok statuses
        else .error (.registration collection.label (failures statuses)),
        ⟨taken.2, before.exchanges ++ (taken.1.flatMap (OpenSubmit.opening collection.path) ++
          (arrivalOrder (·.reply.round) taken.1).map (OpenSubmit.ending collection.path))⟩) := by
  unfold submit
  rw [runFrom_bind, Logged.value_bind, OpenSubmit.value_runFrom_mapM_start]
  dsimp only
  rw [runFrom_bind, Logged.value_bind, OpenSubmit.value_runFrom_forM_settle]
  dsimp only
  rw [← failures_eq, List.append_assoc]
  cases ((server.takeAll collection.path submissions before.state).1.map
    OpenSubmit.status).filter (·.outcome.isFailure) with
  | nil => rfl
  | cons first rest => rfl

/-- Handing in a collection fails exactly when one of its objects does, after all have ended. -/
theorem Collection.submit_stage (collection : Collection) (server : Server ω)
    (submissions : List Submission) (before : Link ω) : ∃ statuses after,
      Stage server collection.path submissions before statuses after ∧
      ((collection.submit server submissions).runFrom before).value =
        (if failures statuses = [] then .ok statuses
          else .error (.registration collection.label (failures statuses)), after) := by
  have hsubmissions := server.map_takeAll collection.path submissions before.state
  refine ⟨_, _, ?_, collection.value_runFrom_submit server submissions before⟩
  refine
    { ids_eq := ?_
      reports := server.reports_answers collection.path submissions before.state
      statuses_eq := rfl
      state_eq := rfl
      exchanged := ⟨_, rfl, ?_⟩ }
  · have hids := congrArg (List.map (·.id)) hsubmissions
    rw [List.map_map] at hids ⊢
    exact hids
  · have hdocuments := congrArg (List.map (·.document)) hsubmissions
    rw [List.map_map] at hdocuments
    rw [← hdocuments]
    exact OpenSubmit.submitted_of_arrivalOrder collection.path _

end TaskGraph
