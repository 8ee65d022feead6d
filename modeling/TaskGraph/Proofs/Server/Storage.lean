import TaskGraph.Proofs.Server.Resolution
import TaskGraph.Proofs.Server.Submission
import Mathlib.Data.Set.Insert

namespace TaskGraph

open Json (Value)

variable {ω : Type}

/-- The identity that a document is kept under. -/
def documentId? (document : Value) : Option Identifier :=
  (document.get? "id").bind Identifier.ofJson?

theorem Identifier.ofJson?_toJson (id : Identifier) : Identifier.ofJson? id.toJson = some id := by
  obtain ⟨resourceType, project, domain, name, version⟩ := id
  cases resourceType <;> rfl

/-- An object whose document says its identity. -/
def Submission.Identified (s : Submission) : Prop := documentId? s.document = some s.id

theorem Task.identified (t : Task) : t.submission.Identified := t.id.ofJson?_toJson

theorem Graph.identified (g : Graph) : g.submission.Identified := g.id.ofJson?_toJson

theorem LaunchPlan.identified (p : LaunchPlan) : p.submission.Identified := p.id.ofJson?_toJson

/-- A server whose states keep these identities. An object that is not kept is taken, or the server
    fails and may have taken it all the same. An object that is kept is a conflict. -/
structure Server.Keeps (server : Server ω) (stored : ω → Set Identifier) : Prop where
  fetch : ∀ path state, stored (server.fetch path state).2 = stored state
  submit_new : ∀ path document state id, documentId? document = some id → id ∉ stored state →
    let replied := server.submit path document state
    (replied.1.Creates ∧ stored replied.2 = insert id (stored state)) ∨
      (replied.1.Fails ∧
        (stored replied.2 = stored state ∨ stored replied.2 = insert id (stored state)))
  submit_kept : ∀ path document state id, documentId? document = some id → id ∈ stored state →
    let replied := server.submit path document state
    replied.1.Conflicts ∧ stored replied.2 = stored state

/-- Hand-ins one after the other, each at its path, and the server after. -/
def Server.takeEach (server : Server ω) : List (String × Submission) → ω → List OpenSubmit × ω
  | [], state => ([], state)
  | (path, submission) :: rest, state =>
    let first := server.take path submission state
    let others := server.takeEach rest first.2
    (first.1 :: others.1, others.2)

theorem Server.takeEach_append (server : Server ω) (first second : List (String × Submission))
    (state : ω) :
    server.takeEach (first ++ second) state =
      let taken := server.takeEach first state
      let others := server.takeEach second taken.2
      (taken.1 ++ others.1, others.2) := by
  induction first generalizing state with
  | nil => rfl
  | cons handIn rest ih => simp only [List.cons_append, takeEach, ih]

theorem Server.takeEach_map (server : Server ω) (path : String) (submissions : List Submission)
    (state : ω) :
    server.takeEach (submissions.map (path, ·)) state = server.takeAll path submissions state := by
  induction submissions generalizing state with
  | nil => rfl
  | cons submission rest ih => simp only [List.map_cons, takeEach, takeAll, ih]

theorem Server.map_takeEach (server : Server ω) (handIns : List (String × Submission))
    (state : ω) : (server.takeEach handIns state).1.map (·.submission) = handIns.map (·.2) := by
  induction handIns generalizing state with
  | nil => rfl
  | cons handIn rest ih => exact congrArg (handIn.2 :: ·) (ih _)

/-- A status that says of an object whether it was kept before it was handed in. -/
structure SubmitStatus.Tells (status : SubmitStatus) (kept : Set Identifier) : Prop where
  alreadyRegistered_iff : status.outcome = .alreadyRegistered ↔ status.id ∈ kept
  registered_iff : status.outcome = .registered ↔ status.id ∉ kept

/-- An identity tells nothing about the objects of other identities. -/
theorem SubmitStatus.Tells.of_insert {status : SubmitStatus} {id : Identifier}
    {kept : Set Identifier} (h : status.Tells (insert id kept)) (hne : status.id ≠ id) :
    status.Tells kept where
  alreadyRegistered_iff := by
    rw [h.alreadyRegistered_iff, Set.mem_insert_iff, or_iff_right hne]
  registered_iff := by
    rw [h.registered_iff, Set.mem_insert_iff, or_iff_right hne]

section Keeps

variable {server : Server ω} {stored : ω → Set Identifier}

/-- Asking for any references leaves what is kept as it is. -/
theorem Server.Keeps.askAll (h : server.Keeps stored) (refs : List Reference) (state : ω) :
    stored (server.askAll refs state).2 = stored state := by
  induction refs using List.reverseRecOn with
  | nil => rfl
  | append_singleton refs ref ih =>
    rw [Server.askAll_concat]
    exact (h.fetch ref.documentPath _).trans ih

/-- Everything that a hand-in can do. -/
theorem Server.Keeps.take_cases (h : server.Keeps stored) (path : String) {submission : Submission}
    (hid : submission.Identified) (state : ω) :
    let call := (server.take path submission state).1
    let after := stored (server.take path submission state).2
    (submission.id ∈ stored state ∧ call.reply.Conflicts ∧ after = stored state) ∨
      (submission.id ∉ stored state ∧ call.reply.Creates ∧
        after = insert submission.id (stored state)) ∨
      (submission.id ∉ stored state ∧ call.reply.Fails ∧
        (after = stored state ∨ after = insert submission.id (stored state))) := by
  by_cases hstored : submission.id ∈ stored state
  · exact .inl ⟨hstored, h.submit_kept path submission.document state _ hid hstored⟩
  · rcases h.submit_new path submission.document state _ hid hstored with hnew | hnew
    · exact .inr (.inl ⟨hstored, hnew⟩)
    · exact .inr (.inr ⟨hstored, hnew⟩)

/-- What is kept stays kept. -/
theorem Server.Keeps.subset_take (h : server.Keeps stored) (path : String) {submission : Submission}
    (hid : submission.Identified) (state : ω) :
    stored state ⊆ stored (server.take path submission state).2 := by
  rcases h.take_cases path hid state with ⟨-, -, hafter⟩ | ⟨-, -, hafter⟩ | ⟨-, -, hafter | hafter⟩
  · exact hafter.ge
  · exact hafter ▸ Set.subset_insert _ _
  · exact hafter.ge
  · exact hafter ▸ Set.subset_insert _ _

/-- A hand-in that does not fail tells whether the object was kept, and leaves it kept. -/
theorem Server.Keeps.take_tells (h : server.Keeps stored) (path : String) {submission : Submission}
    (hid : submission.Identified) {state : ω}
    (hnone : ¬(server.take path submission state).1.reply.Fails) :
    (server.take path submission state).1.status.Tells (stored state) ∧
      stored (server.take path submission state).2 = insert submission.id (stored state) := by
  rcases h.take_cases path hid state with ⟨hold, hconflicts, hafter⟩ | ⟨hnew, hcreates, hafter⟩ |
    ⟨-, hfails, -⟩
  · have houtcome := Reply.outcome_of_conflicts hconflicts
    refine ⟨⟨?_, ?_⟩, hafter.trans (Set.insert_eq_of_mem hold).symm⟩
    · exact iff_of_true houtcome hold
    · exact iff_of_false (by rw [OpenSubmit.status, houtcome]; simp) (not_not_intro hold)
  · have houtcome := Reply.outcome_of_creates hcreates
    refine ⟨⟨?_, ?_⟩, hafter⟩
    · exact iff_of_false (by rw [OpenSubmit.status, houtcome]; simp) hnew
    · exact iff_of_true houtcome hnew
  · exact absurd hfails hnone

/-- Nothing fails when everything that is new is taken: an object that was kept at the start is
    still kept when it is handed in. -/
theorem Server.Keeps.not_fails (h : server.Keeps stored) {handIns : List (String × Submission)}
    {kept : Set Identifier} {state : ω} (hids : ∀ x ∈ handIns, x.2.Identified)
    (hkept : kept ⊆ stored state)
    (hserve : ∀ call ∈ (server.takeEach handIns state).1,
      call.submission.id ∉ kept → call.reply.Creates) :
    ∀ call ∈ (server.takeEach handIns state).1, ¬call.reply.Fails := by
  induction handIns generalizing state with
  | nil => simp [Server.takeEach]
  | cons handIn rest ih =>
    obtain ⟨path, submission⟩ := handIn
    obtain ⟨hid, hrest⟩ := List.forall_mem_cons.1 hids
    obtain ⟨hfirst, hothers⟩ := List.forall_mem_cons.1 hserve
    have hlater := hkept.trans (h.subset_take path hid state)
    refine List.forall_mem_cons.2 ⟨?_, ih hrest hlater hothers⟩
    rcases h.take_cases path hid state with ⟨-, hconflicts, -⟩ | ⟨-, hcreates, -⟩ | ⟨hnew, -⟩
    · exact hconflicts.not_fails
    · exact hcreates.not_fails
    · exact (hfirst fun hold => hnew (hkept hold)).not_fails

/-- When nothing fails, the statuses say what was kept at the start, since no hand-in is for an
    object that an earlier one has put there. In the end everything is kept. -/
theorem Server.Keeps.takeEach_tells (h : server.Keeps stored)
    {handIns : List (String × Submission)} {state : ω} (hids : ∀ x ∈ handIns, x.2.Identified)
    (hnodup : (handIns.map (·.2.id)).Nodup)
    (hnone : ∀ call ∈ (server.takeEach handIns state).1, ¬call.reply.Fails) :
    (∀ call ∈ (server.takeEach handIns state).1, call.status.Tells (stored state)) ∧
      stored (server.takeEach handIns state).2 =
        stored state ∪ {id | id ∈ handIns.map (·.2.id)} := by
  induction handIns generalizing state with
  | nil => simp [Server.takeEach]
  | cons handIn rest ih =>
    obtain ⟨path, submission⟩ := handIn
    obtain ⟨hid, hrest⟩ := List.forall_mem_cons.1 hids
    obtain ⟨hfirst, hothers⟩ := List.forall_mem_cons.1 hnone
    obtain ⟨hfresh, hdistinct⟩ := List.nodup_cons.1 hnodup
    obtain ⟨htells, hafter⟩ := ih hrest hdistinct hothers
    obtain ⟨htold, hstored⟩ := h.take_tells path hid hfirst
    rw [hstored] at htells hafter
    refine ⟨List.forall_mem_cons.2 ⟨htold, ?_⟩, ?_⟩
    · intro call hcall
      refine (htells call hcall).of_insert ?_
      intro hsame
      have hmem : call.submission ∈ rest.map (·.2) :=
        server.map_takeEach rest _ ▸ List.mem_map_of_mem hcall
      obtain ⟨later, hlater, heq⟩ := List.mem_map.1 hmem
      exact hfresh (List.mem_map.2 ⟨later, hlater, heq ▸ hsame⟩)
    · refine hafter.trans (Set.ext fun id => ?_)
      simp only [Set.mem_union, Set.mem_insert_iff, Set.mem_ofPred_eq, List.map_cons,
        List.mem_cons]
      tauto

end Keeps

end TaskGraph
