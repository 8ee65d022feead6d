import Mathlib.Data.List.Perm.Basic
import TaskGraph.Proofs.Server.Storage

namespace TaskGraph

open Routine

variable {ω : Type}

/-- The order in which calls end: those that end at once, and then the others as they arrive. -/
def endingOrder {α : Type} (round : α → Nat) (calls : List α) : List α :=
  calls.filter (round · = 0) ++ arrivalOrder round calls

theorem endingOrder_perm {α : Type} (round : α → Nat) (calls : List α) :
    (endingOrder round calls).Perm calls := atOnce_append_arrivalOrder_perm round calls

/-- When no call ends at once, calls end in the order of their rounds. -/
theorem pairwise_endingOrder {α : Type} {round : α → Nat} {calls : List α}
    (hlate : ∀ c ∈ calls, 0 < round c) :
    (endingOrder round calls).Pairwise fun a b => round a ≤ round b := by
  have hnone : calls.filter (round · = 0) = [] := by
    simpa [List.filter_eq_nil_iff, Nat.pos_iff_ne_zero] using hlate
  rw [endingOrder, hnone, List.nil_append, arrivalOrder]
  have hsorted := @List.pairwise_mergeSort α (fun a b => round a ≤ round b)
    (by simp only [decide_eq_true_eq]; omega) (by simp; omega)
    (calls.filter fun c => 0 < round c)
  simpa using hsorted

/-- Calls can be made to end in any order, by the rounds in which they end. -/
theorem exists_rounds_of_perm {α : Type} {order items : List α} (h : order.Perm items) :
    ∃ timed : List (α × Nat), timed.map Prod.fst = items ∧
      (endingOrder Prod.snd timed).map Prod.fst = order := by
  have hranked : List.Forall₂ (fun x (t : α × Nat) => x = t.1) order (order.zipIdx 1) := by
    rw [← List.forall₂_map_right_iff, List.zipIdx_map_fst, List.forall₂_eq_eq_eq]
  obtain ⟨timed, hitems, hperm⟩ := List.perm_comp_forall₂ h.symm hranked
  rw [← List.forall₂_map_right_iff, List.forall₂_eq_eq_eq] at hitems
  refine ⟨timed, hitems.symm, ?_⟩
  have hlate : ∀ t ∈ timed, 0 < t.2 := by
    intro t ht
    exact List.le_snd_of_mem_zipIdx (hperm.subset ht)
  have hending : (endingOrder Prod.snd timed).Perm (order.zipIdx 1) :=
    (endingOrder_perm _ _).trans hperm
  have hsame : endingOrder Prod.snd timed = order.zipIdx 1 := by
    refine hending.eq_of_pairwise ?_ (pairwise_endingOrder hlate) ?_
    · rintro ⟨x, i⟩ ⟨y, j⟩ ha hb hle hge
      obtain rfl : i = j := Nat.le_antisymm hle hge
      have hx := (List.mk_mem_zipIdx_iff_le_and_getElem?_sub.1 (hending.subset ha)).2
      have hy := (List.mk_mem_zipIdx_iff_le_and_getElem?_sub.1 hb).2
      obtain rfl := Option.some.inj (hx.symm.trans hy)
      rfl
    · have hrising := List.pairwise_lt_range' (s := 1) (n := order.length) 1
      rw [← List.zipIdx_map_snd 1 order, List.pairwise_map] at hrising
      exact hrising.imp Nat.le_of_lt
  rw [hsame, List.zipIdx_map_fst]

theorem endingOrder_map {α β : Type} (round : β → Nat) (f : α → β) (calls : List α) :
    endingOrder round (calls.map f) = (endingOrder (fun c => round (f c)) calls).map f := by
  unfold endingOrder arrivalOrder
  rw [List.filter_map, List.filter_map, List.map_append]
  congr 1
  exact (List.map_mergeSort (f := f) (r := fun a b => decide (round (f a) ≤ round (f b)))
    fun _ _ _ _ => rfl).symm

/-- The line that is logged at the end of a hand-in. -/
def SubmitStatus.line (s : SubmitStatus) : LogLine := ⟨s.level, s.text⟩

namespace OpenSubmit

theorem log_runFrom_settle (path : String) (s : OpenSubmit) (link : Link ω) :
    ((s.settle path).runFrom link).log = [s.status.line] := rfl

theorem log_runFrom_start (server : Server ω) (path : String) (submission : Submission)
    (link : Link ω) :
    ((start server path submission).runFrom link).log =
      ([(server.take path submission link.state).1].filter (·.reply.round = 0)).map
        (·.status.line) := by
  unfold start Server.take
  rw [runFrom_bind, Logged.log_bind, Link.value_runFrom_submit]
  dsimp only
  split
  · next hzero =>
    rw [runFrom_bind, Logged.log_bind, value_runFrom_settle, log_runFrom_settle]
    simp [hzero]
    rfl
  · next hlater =>
    simp [hlater]
    rfl

theorem log_runFrom_mapM_start (server : Server ω) (path : String)
    (submissions : List Submission) (link : Link ω) :
    ((submissions.mapM (start server path)).runFrom link).log =
      ((server.takeAll path submissions link.state).1.filter (·.reply.round = 0)).map
        (·.status.line) := by
  induction submissions generalizing link with
  | nil => simp [Server.takeAll]
  | cons submission rest ih =>
    rw [List.mapM_cons, runFrom_bind, Logged.log_bind, log_runFrom_start, value_runFrom_start]
    dsimp only
    rw [runFrom_bind, Logged.log_bind, ih, value_runFrom_mapM_start]
    simp [Server.takeAll, ← List.map_append, ← List.filter_append]

theorem log_runFrom_forM_settle (path : String) (calls : List OpenSubmit) (link : Link ω) :
    ((calls.forM (settle path)).runFrom link).log = calls.map (·.status.line) := by
  induction calls generalizing link with
  | nil => simp
  | cons s rest ih =>
    have hcons : (List.forM (s :: rest) (settle path) : Routine (Link ω) PUnit) =
        s.settle path >>= fun _ => rest.forM (settle path) := rfl
    rw [hcons, runFrom_bind, Logged.log_bind, value_runFrom_settle, log_runFrom_settle]
    dsimp only
    rw [ih]
    simp

end OpenSubmit

/-- The statuses of objects by the answers to their hand-ins. -/
def statusesBy (submissions : List Submission) (answers : List (Except Error Response)) :
    List SubmitStatus :=
  List.zipWith (fun submission answer => ⟨submission.id, .ofAnswer answer⟩) submissions answers

theorem Server.map_status_takeAll (server : Server ω) (path : String)
    (submissions : List Submission) (state : ω) :
    (server.takeAll path submissions state).1.map OpenSubmit.status =
      statusesBy submissions (server.answers path submissions state) := by
  induction submissions generalizing state with
  | nil => rfl
  | cons submission rest ih => exact congrArg (_ :: ·) (ih _)

theorem Collection.log_runFrom_submit (collection : Collection) (server : Server ω)
    (submissions : List Submission) (before : Link ω) :
    ((collection.submit server submissions).runFrom before).log =
      (endingOrder (·.reply.round)
        (server.takeAll collection.path submissions before.state).1).map (·.status.line) := by
  unfold submit
  rw [runFrom_bind, Logged.log_bind, OpenSubmit.value_runFrom_mapM_start,
    OpenSubmit.log_runFrom_mapM_start]
  dsimp only
  rw [runFrom_bind, Logged.log_bind, OpenSubmit.value_runFrom_forM_settle,
    OpenSubmit.log_runFrom_forM_settle]
  dsimp only
  rw [endingOrder, List.map_append]
  split <;> simp

/-- The answers decide the result, and all that is logged but for its order. -/
theorem Collection.submit_by_answers (collection : Collection) (server : Server ω)
    (submissions : List Submission) (before : Link ω) :
    let statuses := statusesBy submissions (server.answers collection.path submissions before.state)
    let run := (collection.submit server submissions).runFrom before
    run.value.1 = (if failures statuses = [] then .ok statuses
      else .error (.registration collection.label (failures statuses))) ∧
    run.log.Perm (statuses.map SubmitStatus.line) := by
  intro statuses run
  have hstatuses := server.map_status_takeAll collection.path submissions before.state
  constructor
  · have hvalue := congrArg Prod.fst (collection.value_runFrom_submit server submissions before)
    dsimp only at hvalue
    rw [hstatuses] at hvalue
    exact hvalue
  · have hperm := (endingOrder_perm (·.reply.round)
      (server.takeAll collection.path submissions before.state).1).map (·.status.line)
    rw [← collection.log_runFrom_submit] at hperm
    have hlines := congrArg (List.map SubmitStatus.line) hstatuses
    rw [List.map_map] at hlines
    exact hperm.trans (List.Perm.of_eq hlines)

/-- The server that gives the replies of a list, one to each hand-in. -/
def Server.scripted : Server (List Reply) where
  fetch _ script := (⟨0, .ok ⟨404, .null⟩⟩, script)
  submit _ _ script := (script.headD ⟨0, .ok ⟨404, .null⟩⟩, script.tail)

theorem Server.takeAll_scripted (path : String) (calls : List OpenSubmit) :
    (scripted.takeAll path (calls.map (·.submission)) (calls.map (·.reply))).1 = calls := by
  induction calls with
  | nil => rfl
  | cons s rest ih => exact congrArg (s :: ·) ih

theorem Collection.filterMap_done_submit (collection : Collection) (server : Server ω)
    (submissions : List Submission) (state : ω) :
    ((collection.submit server submissions).runFrom ⟨state, []⟩).value.2.exchanges.filterMap
        Exchange.submitDone? =
      (endingOrder (·.reply.round)
        (server.takeAll collection.path submissions state).1).map
          fun s => (collection.path, s.submission.document) := by
  rw [value_runFrom_submit]
  dsimp only
  rw [List.nil_append, List.filterMap_append, OpenSubmit.filterMap_opening_done,
    OpenSubmit.filterMap_ending_done, ← List.map_append, endingOrder]

/-- Hand-ins with these answers can end in any order. -/
theorem OpenSubmit.exists_of_perm {submissions : List Submission}
    {answers : List (Except Error Response)} (hlength : answers.length = submissions.length)
    {order : List (Submission × Except Error Response)}
    (h : order.Perm (submissions.zip answers)) :
    ∃ calls : List OpenSubmit, calls.map (·.submission) = submissions ∧
      calls.map (·.reply.answer) = answers ∧
      (endingOrder (·.reply.round) calls).map (fun s => (s.submission, s.reply.answer)) =
        order := by
  obtain ⟨timed, hitems, horder⟩ := exists_rounds_of_perm h
  refine ⟨timed.map fun t => ⟨t.1.1, t.2, t.1.2⟩, ?_, ?_, ?_⟩
  · have hfirst := congrArg (List.map Prod.fst) hitems
    rw [List.map_map, List.map_fst_zip hlength.ge] at hfirst
    rw [← hfirst, List.map_map]
    rfl
  · have hsecond := congrArg (List.map Prod.snd) hitems
    rw [List.map_map, List.map_snd_zip hlength.le] at hsecond
    rw [← hsecond, List.map_map]
    rfl
  · rw [endingOrder_map, List.map_map, ← horder]
    rfl

/-- Handing in a collection does not depend on when the answers come. Each object is handed in once
    with its own document, whatever becomes of the others, and gets one status, by the answer to its
    own hand-in. Together the statuses decide the result. So a run with the same answers has the
    same result, and its log has the same lines; and the hand-ins can end in any order. -/
theorem Collection.submit_timeless (collection : Collection) (server : Server ω)
    (submissions : List Submission) (before : Link ω) :
    let answers := server.answers collection.path submissions before.state
    let run := (collection.submit server submissions).runFrom before
    (∃ events, run.value.2.exchanges = before.exchanges ++ events ∧
      Submitted collection.path (submissions.map (·.document)) events) ∧
    (∃ statuses, statuses.map (·.id) = submissions.map (·.id) ∧
      List.Forall₂ SubmitStatus.Reports statuses answers ∧
      run.value.1 = (if failures statuses = [] then .ok statuses
        else .error (.registration collection.label (failures statuses))) ∧
      run.log.Perm (statuses.map SubmitStatus.line)) ∧
    (∀ (υ : Type) (other : Server υ) (link : Link υ),
      other.answers collection.path submissions link.state = answers →
      let again := (collection.submit other submissions).runFrom link
      again.value.1 = run.value.1 ∧ again.log.Perm run.log) ∧
    ∀ order : List (Submission × Except Error Response),
      order.Perm (submissions.zip answers) → ∃ script,
      let timed := (collection.submit .scripted submissions).runFrom ⟨script, []⟩
      Server.scripted.answers collection.path submissions script = answers ∧
      timed.value.2.exchanges.filterMap Exchange.submitDone? =
        order.map (fun call => (collection.path, call.1.document)) ∧
      timed.log = order.map fun call => SubmitStatus.line ⟨call.1.id, .ofAnswer call.2⟩ := by
  intro answers run
  have hstatuses := server.map_status_takeAll collection.path submissions before.state
  have hlength : answers.length = submissions.length := by
    have htaken := congrArg List.length
      (server.map_takeAll collection.path submissions before.state)
    simpa [answers, Server.answers] using htaken
  obtain ⟨hvalue, hlog⟩ := collection.submit_by_answers server submissions before
  obtain ⟨_, _, hstage, hrun⟩ := collection.submit_stage server submissions before
  refine ⟨?_, ?_, ?_, ?_⟩
  · obtain ⟨events, hevents, hsubmitted⟩ := hstage.exchanged
    exact ⟨events, (congrArg (·.2.exchanges) hrun).trans hevents, hsubmitted⟩
  · refine ⟨statusesBy submissions answers, ?_, ?_, hvalue, hlog⟩
    · rw [← hstatuses, ← hstage.statuses_eq]
      exact hstage.ids_eq
    · rw [← hstatuses]
      exact server.reports_answers collection.path submissions before.state
  · intro υ other link hsame again
    obtain ⟨hvalue', hlog'⟩ := collection.submit_by_answers other submissions link
    rw [hsame] at hvalue' hlog'
    exact ⟨hvalue'.trans hvalue.symm, hlog'.trans hlog.symm⟩
  · intro order horder
    obtain ⟨calls, hsubmissions, hanswers, hending⟩ := OpenSubmit.exists_of_perm hlength horder
    have htaken := Server.takeAll_scripted collection.path calls
    rw [hsubmissions] at htaken
    refine ⟨calls.map (·.reply), ?_, ?_, ?_⟩
    · rw [Server.answers, htaken, hanswers]
    · rw [collection.filterMap_done_submit, htaken, ← hending, List.map_map]
      rfl
    · rw [collection.log_runFrom_submit, htaken, ← hending, List.map_map]
      rfl

end TaskGraph
