import TaskGraph.Proofs.Graph.Dependencies
import TaskGraph.Proofs.Registration.Stages
import TaskGraph.Proofs.Server.Storage

namespace TaskGraph

variable {σ ω : Type}

namespace Routine

variable {s α β : Type}

/-- A computation that comes out the same from every state. -/
def Steady (p : Routine s α) : Prop :=
  ∀ state state', (p.runFrom state).value.1 = (p.runFrom state').value.1

theorem steady_ofAction (a : Action α) : (ofAction a : Routine s α).Steady :=
  fun _ _ => rfl

theorem Steady.bind {p : Routine s α} {f : α → Routine s β} (hp : p.Steady)
    (hf : ∀ a, (f a).Steady) : (p >>= f).Steady := by
  intro state state'
  have hsame := hp state state'
  rw [runFrom_bind, runFrom_bind, Logged.value_bind, Logged.value_bind]
  generalize (p.runFrom state).value = first at hsame ⊢
  generalize (p.runFrom state').value = second at hsame ⊢
  obtain ⟨outcome, between⟩ := first
  obtain ⟨_, between'⟩ := second
  obtain rfl : outcome = _ := hsame
  cases outcome with
  | ok a => exact hf a between between'
  | error e => rfl

end Routine

/-- A workflow that is traced the same each time, whatever its body has noted. -/
def Workflow.Steady (w : Workflow σ) : Prop :=
  ∀ callables : Callables, (w.trace callables .empty).Steady

namespace Compilation

theorem steady_graphs {registry : Registry} {callables : Callables} {ws : List (Workflow σ)}
    (hsteady : ∀ w ∈ ws, w.Steady) (log : CallLog) :
    (graphs registry callables log ws).Steady := by
  induction ws generalizing log with
  | nil => exact fun _ _ => rfl
  | cons w ws ih =>
    obtain ⟨hw, hws⟩ := List.forall_mem_cons.1 hsteady
    refine Routine.Steady.bind (hw callables) fun traced => ?_
    refine (Routine.steady_ofAction _).bind fun graph => ?_
    exact (ih hws traced.2).bind fun rest => fun _ _ => rfl

/-- Steady workflows make the same unit each time. -/
theorem steady_compile {c : Compilation σ} (hsteady : ∀ w ∈ c.workflows, w.Steady) :
    c.compile.Steady := by
  unfold compile
  dsimp only
  split
  · exact (steady_graphs hsteady .empty).bind fun gs => fun _ _ => rfl
  · exact fun _ _ => rfl

end Compilation

/-- The hand-ins of everything in a unit, in the order of a registration. -/
def Bundle.handIns (unit : Bundle) : List (String × Submission) :=
  unit.taskHandIns.map ("api/v1/tasks", ·) ++
    unit.workflowHandIns.map ("api/v1/workflows", ·) ++
    unit.launchPlanHandIns.map ("api/v1/launch_plans", ·)

namespace Bundle

theorem identified_of_mem_handIns {unit : Bundle} {handIn : String × Submission}
    (h : handIn ∈ unit.handIns) : handIn.2.Identified := by
  simp only [handIns, taskHandIns, workflowHandIns, launchPlanHandIns, List.mem_append,
    List.mem_map, exists_exists_and_eq_and] at h
  rcases h with (⟨t, -, rfl⟩ | ⟨g, -, rfl⟩) | ⟨p, -, rfl⟩
  · exact t.identified
  · exact g.identified
  · exact p.identified

theorem map_handIns (unit : Bundle) : unit.handIns.map (·.2.id) = unit.ids := by
  simp only [handIns, taskHandIns, workflowHandIns, launchPlanHandIns, List.map_append,
    List.map_map]
  rfl

/-- One kind of object is handed in after the other. -/
theorem takeEach_handIns (server : Server ω) (unit : Bundle) (state : ω) :
    server.takeEach unit.handIns state =
      let tasks := server.takeAll "api/v1/tasks" unit.taskHandIns state
      let workflows := server.takeAll "api/v1/workflows" unit.workflowHandIns tasks.2
      let launchPlans :=
        server.takeAll "api/v1/launch_plans" unit.launchPlanHandIns workflows.2
      (tasks.1 ++ workflows.1 ++ launchPlans.1, launchPlans.2) := by
  simp only [handIns, Server.takeEach_append, Server.takeEach_map]

end Bundle

theorem Exchange.filterMap_fetchSent_of_isSubmit {events : List Exchange}
    (h : ∀ e ∈ events, e.isSubmit) : events.filterMap Exchange.fetchSent? = [] := by
  rw [List.filterMap_eq_nil_iff]
  intro e he
  have hkind := h e he
  cases e with
  | fetchSent path => cases hkind
  | fetchDone path => rfl
  | submitSent path body => rfl
  | submitDone path body => rfl

section Uploaded

variable {server : Server ω} {unit : Bundle} {before after : Link ω}

/-- A stage has a failed object exactly when the server fails in one of its hand-ins. -/
theorem Stage.failed_iff {path : String} {submissions : List Submission}
    {statuses : List SubmitStatus} (h : Stage server path submissions before statuses after) :
    (∃ status ∈ statuses, status.Failed) ↔
      ∃ call ∈ (server.takeAll path submissions before.state).1, call.reply.Fails := by
  rw [h.statuses_eq]
  constructor
  · rintro ⟨_, hmem, hfailed⟩
    obtain ⟨call, hcall, rfl⟩ := List.mem_map.1 hmem
    exact ⟨call, hcall, OpenSubmit.failed_status_iff.1 hfailed⟩
  · rintro ⟨call, hcall, hfails⟩
    exact ⟨call.status, List.mem_map_of_mem hcall, OpenSubmit.failed_status_iff.2 hfails⟩

/-- A unit of which no object fails is handed in to its end. -/
theorem Uploaded.exists_receipt {result : Except Error Receipt}
    (h : Uploaded server unit before result after)
    (hnone : ∀ call ∈ (server.takeEach unit.handIns before.state).1, ¬call.reply.Fails) :
    ∃ receipt, result = .ok receipt := by
  rw [Bundle.takeEach_handIns] at hnone
  obtain ⟨hfirst, hplans⟩ := List.forall_mem_append.1 hnone
  obtain ⟨htasks, hworkflows⟩ := List.forall_mem_append.1 hfirst
  cases h with
  | tasksFailed hstage hfailed =>
    obtain ⟨call, hcall, hfails⟩ := hstage.failed_iff.1 hfailed
    exact absurd hfails (htasks call hcall)
  | workflowsFailed hstage _ hstage' hfailed =>
    rw [← hstage.state_eq] at hworkflows
    obtain ⟨call, hcall, hfails⟩ := hstage'.failed_iff.1 hfailed
    exact absurd hfails (hworkflows call hcall)
  | launchPlansFailed hstage _ hstage' _ hstage'' hfailed =>
    rw [← hstage.state_eq, ← hstage'.state_eq] at hplans
    obtain ⟨call, hcall, hfails⟩ := hstage''.failed_iff.1 hfailed
    exact absurd hfails (hplans call hcall)
  | registered => exact ⟨_, rfl⟩

/-- What a unit that was handed in to its end has done. -/
structure Uploaded.Complete (server : Server ω) (unit : Bundle) (before : Link ω)
    (receipt : Receipt) (after : Link ω) : Prop where
  statuses_eq : receipt.statuses =
    (server.takeEach unit.handIns before.state).1.map OpenSubmit.status
  state_eq : after.state = (server.takeEach unit.handIns before.state).2
  not_fails : ∀ call ∈ (server.takeEach unit.handIns before.state).1, ¬call.reply.Fails
  exchanged : ∃ events, after.exchanges = before.exchanges ++ events ∧ ∀ e ∈ events, e.isSubmit

theorem Uploaded.complete {receipt : Receipt}
    (h : Uploaded server unit before (.ok receipt) after) :
    Uploaded.Complete server unit before receipt after := by
  cases h with
  | @registered tasks workflows launchPlans first second _ hstage hnone hstage' hnone' hstage''
      hnone'' =>
    have hstatuses : tasks ++ workflows ++ launchPlans =
        (server.takeEach unit.handIns before.state).1.map OpenSubmit.status := by
      rw [Bundle.takeEach_handIns, hstage.statuses_eq, hstage'.statuses_eq, hstage''.statuses_eq,
        hstage'.state_eq, hstage.state_eq, List.map_append, List.map_append]
    refine
      { statuses_eq := hstatuses
        state_eq := ?_
        not_fails := ?_
        exchanged := ?_ }
    · rw [Bundle.takeEach_handIns, hstage''.state_eq, hstage'.state_eq, hstage.state_eq]
    · have hgood : ∀ status ∈ tasks ++ workflows ++ launchPlans, ¬status.Failed := by
        simp only [List.forall_mem_append]
        exact ⟨⟨hnone, hnone'⟩, hnone''⟩
      intro call hcall hfails
      exact hgood call.status (hstatuses ▸ List.mem_map_of_mem hcall)
        (OpenSubmit.failed_status_iff.2 hfails)
    · obtain ⟨events, hevents, hsubmitted⟩ := hstage.exchanged
      obtain ⟨events', hevents', hsubmitted'⟩ := hstage'.exchanged
      obtain ⟨events'', hevents'', hsubmitted''⟩ := hstage''.exchanged
      refine ⟨events ++ events' ++ events'', ?_, ?_⟩
      · rw [hevents'', hevents', hevents, List.append_assoc, List.append_assoc, List.append_assoc]
      · simp only [List.forall_mem_append]
        exact ⟨⟨hsubmitted.isSubmit, hsubmitted'.isSubmit⟩, hsubmitted''.isSubmit⟩

namespace Uploaded.Complete

variable {receipt : Receipt}

theorem ids_eq (h : Uploaded.Complete server unit before receipt after) :
    receipt.statuses.map (·.id) = unit.ids := by
  have hids : ∀ calls : List OpenSubmit, (calls.map OpenSubmit.status).map (·.id) =
      (calls.map (·.submission)).map (·.id) := by
    intro calls
    rw [List.map_map, List.map_map]
    rfl
  rw [h.statuses_eq, hids, server.map_takeEach, ← unit.map_handIns, List.map_map]
  rfl

/-- The receipt says what was kept before, and all of the unit is kept in the end. -/
theorem tells {stored : ω → Set Identifier} (hkeeps : server.Keeps stored)
    (hnodup : unit.ids.Nodup) (h : Uploaded.Complete server unit before receipt after) :
    (∀ status ∈ receipt.statuses, status.Tells (stored before.state)) ∧
      stored after.state = stored before.state ∪ {id | id ∈ unit.ids} := by
  rw [← unit.map_handIns] at hnodup ⊢
  obtain ⟨htells, hstored⟩ :=
    hkeeps.takeEach_tells (fun _ hx => Bundle.identified_of_mem_handIns hx) hnodup h.not_fails
  refine ⟨?_, h.state_eq ▸ hstored⟩
  intro status hstatus
  rw [h.statuses_eq] at hstatus
  obtain ⟨call, hcall, rfl⟩ := List.mem_map.1 hstatus
  exact htells call hcall

end Uploaded.Complete

end Uploaded

theorem Server.mem_askAll_of_prefix {server : Server ω} {refs all : List Reference} {state : ω}
    (h : refs <+: all) {f : OpenFetch} (hf : f ∈ (server.askAll refs state).1) :
    f ∈ (server.askAll all state).1 := by
  obtain ⟨rest, rfl⟩ := h
  induction rest using List.reverseRecOn with
  | nil => rwa [List.append_nil]
  | append_singleton rest ref ih =>
    rw [← List.append_assoc, askAll_concat]
    exact List.mem_append_left _ ih

namespace Registry

/-- A run in which every answer can be read asks for all that is open, and succeeds. -/
theorem resolve_of_readable {r : Registry} (hkeys : (r.references.map Reference.key).Nodup)
    {server : Server ω} {link : Link ω}
    (hread : ∀ f ∈ (server.askAll r.unresolved link.state).1, ∃ remote, f.reading = .ok remote) :
    ∃ after events,
      ((resolve server).runFrom (r, link)).value = (.ok r.unresolved.length, after) ∧
      after.2.state = (server.askAll r.unresolved link.state).2 ∧
      after.2.exchanges = link.exchanges ++ events ∧
      events.filterMap Exchange.fetchSent? = r.unresolved.map Reference.documentPath := by
  obtain ⟨fetches, ended, hrun⟩ := resolve_conducted hkeys server link
  generalize ((resolve server).runFrom (r, link)).value = result at hrun ⊢
  obtain ⟨outcome, after⟩ := result
  have hasked := hrun.asked
  cases outcome with
  | error e =>
    obtain ⟨f, hf, hreading, -⟩ := hrun.of_error e rfl
    have hmem : f ∈ (server.askAll (fetches.map (·.reference)) link.state).1 :=
      hasked ▸ hrun.ended_subset f hf
    obtain ⟨remote, hremote⟩ := hread f (Server.mem_askAll_of_prefix hrun.pending hmem)
    rw [hreading] at hremote
    cases hremote
  | ok n =>
    obtain ⟨rfl, hall, -⟩ := hrun.of_ok n rfl
    obtain ⟨events, hevents, hfetched⟩ := hrun.exchanged
    refine ⟨after, events, rfl, ?_, hevents, ?_⟩
    · rw [← hall, ← hasked]
    · rw [hfetched.sent_eq, ← hall, List.map_map]
      rfl

/-- A run that finds nothing open does nothing. -/
theorem resolve_of_resolved {r : Registry} (h : r.unresolved = []) (server : Server ω)
    (link : Link ω) : ((resolve server).runFrom (r, link)).value = (.ok 0, r, link) := by
  unfold resolve
  rw [Routine.runFrom_bind, Routine.runFrom_get, pure_bind]
  dsimp only
  rw [h]
  simp [arrivalOrder]

/-- What is open after a run was open before it. -/
theorem unresolved_subset {r : Registry} (hkeys : (r.references.map Reference.key).Nodup)
    (server : Server ω) (link : Link ω) :
    ((resolve server).runFrom (r, link)).value.2.1.unresolved ⊆ r.unresolved := by
  obtain ⟨fetches, ended, hrun⟩ := resolve_conducted hkeys server link
  intro now hnow
  obtain ⟨hmem, hopen⟩ := mem_unresolved_iff.1 hnow
  obtain ⟨ref, href, hsettled⟩ := exists_of_forall₂_right hrun.settled hmem
  obtain ⟨rfl, -⟩ := hsettled.of_open hopen
  exact mem_unresolved_iff.2 ⟨href, hopen⟩

end Registry

namespace Session

/-- Handing in a unit leaves the compilation alone. -/
theorem compilation_upload (server : Server ω) (unit : Bundle) (s : Session σ ω) :
    ((upload server unit).runFrom s).value.2.compilation = s.compilation := by
  have hsubmit : ∀ collection submissions,
      Routine.Triple (fun t : Session σ ω => t.compilation = s.compilation)
        (submit server collection submissions) (fun _ t => t.compilation = s.compilation)
        (fun _ t => t.compilation = s.compilation) := by
    intro collection submissions t ht
    rw [value_runFrom_submit]
    cases ((collection.submit server submissions).runFrom t.link).value.1 with
    | ok statuses => exact ht
    | error e => exact ht
  have hupload : Routine.Triple (fun t : Session σ ω => t.compilation = s.compilation)
      (upload server unit) (fun _ t => t.compilation = s.compilation)
      (fun _ t => t.compilation = s.compilation) := by
    refine (hsubmit .tasks _).bind fun tasks => ?_
    refine (hsubmit .workflows _).bind fun workflows => ?_
    refine (hsubmit .launchPlans _).bind fun launchPlans => ?_
    exact Routine.Triple.pure_of fun _ h => h
  exact hupload.reached rfl

/-- All that a registration does to a compilation is to fill in references. -/
theorem compilation_register (server : Server ω) (s : Session σ ω) :
    ((register server).runFrom s).value.2.compilation =
      s.compilation.resolved server s.link s.notes := by
  rcases register_cases server s with ⟨e, -, hresult⟩ | ⟨n, e, -, -, hresult⟩ |
    ⟨n, unit, -, -, hresult, -⟩
  · rw [hresult]
    rfl
  · rw [hresult]
    rfl
  · rw [hresult, compilation_upload]
    rfl

/-- The result of a registration that found these identities kept on the server and these
    references open. -/
structure Resumed (stored : ω → Set Identifier) (ids : List Identifier) (before : Session σ ω)
    (receipt : Receipt) (after : Session σ ω) : Prop where
  ids_eq : receipt.statuses.map (·.id) = ids
  tells : ∀ status ∈ receipt.statuses, status.Tells (stored before.link.state)
  stored_eq : stored after.link.state = stored before.link.state ∪ {id | id ∈ ids}
  refetched : ∃ events, after.link.exchanges = before.link.exchanges ++ events ∧
    events.filterMap Exchange.fetchSent? =
      before.compilation.registry.unresolved.map Reference.documentPath

variable {server : Server ω} {stored : ω → Set Identifier} {s between resolved : Session σ ω}
  {outcome : Except Error Receipt} {unit : Bundle}

theorem unit_ids_eq (h : (compile.runFrom s).value.1 = .ok unit) : unit.ids = s.compilation.ids :=
  Compilation.unit_ids_eq (compile_eq_ok h)

/-- A registration in which nothing goes wrong, whatever was done before it. -/
theorem resumed_of_served (hkeeps : server.Keeps stored) (hreachable : s.compilation.Reachable)
    (hresolved : ((resolveReferences server).runFrom s).value.2 = resolved)
    (hread : ∀ f ∈ (server.askAll s.compilation.registry.unresolved s.link.state).1,
      ∃ remote, f.reading = .ok remote)
    (hcompile : (compile.runFrom resolved).value.1 = .ok unit)
    (hserve : ∀ call ∈ (server.takeEach unit.handIns resolved.link.state).1,
      call.submission.id ∉ stored s.link.state → call.reply.Creates) :
    ∃ receipt after, ((register server).runFrom s).value = (.ok receipt, after) ∧
      Resumed stored s.compilation.ids s receipt after := by
  obtain ⟨filled, events, hfilled, hstate, hexchanges, hsent⟩ :=
    Registry.resolve_of_readable hreachable.keys_nodup hread
  have hvalue := value_runFrom_resolveReferences server s
  rw [hfilled] at hvalue
  dsimp only at hvalue
  have hlink : resolved.link = filled.2 := by
    rw [← hresolved, hvalue]
  have hkept : stored resolved.link.state = stored s.link.state := by
    rw [hlink, hstate, hkeeps.askAll]
  have hids : unit.ids = s.compilation.ids := by
    rw [unit_ids_eq hcompile, ← hresolved]
    exact s.compilation.ids_resolved server s.link s.notes
  have hnodup := hids ▸ hreachable.consistent.ids_nodup
  rcases register_cases server s with ⟨e, he, -⟩ | ⟨n, e, -, he, -⟩ |
    ⟨n, unit', -, hunit', -, huploaded⟩
  · rw [hvalue] at he
    cases he
  · rw [hresolved, hcompile] at he
    cases he
  · rw [hresolved, hcompile] at hunit'
    obtain rfl := Except.ok.inj hunit'
    rw [hresolved] at huploaded
    generalize ((register server).runFrom s).value = result at huploaded
    obtain ⟨receipt, hreceipt⟩ := huploaded.exists_receipt (hkeeps.not_fails
      (fun _ hx => Bundle.identified_of_mem_handIns hx) hkept.ge hserve)
    rw [hreceipt] at huploaded
    have hcomplete := huploaded.complete
    obtain ⟨htells, hstored⟩ := hcomplete.tells hkeeps hnodup
    obtain ⟨later, hlater, hsubmit⟩ := hcomplete.exchanged
    refine ⟨receipt, result.2, Prod.ext hreceipt rfl,
      { ids_eq := hcomplete.ids_eq.trans hids
        tells := hkept ▸ htells
        stored_eq := hids ▸ hkept ▸ hstored
        refetched := ⟨events ++ later, ?_, ?_⟩ }⟩
    · rw [hlater, hlink, hexchanges, List.append_assoc]
    · rw [List.filterMap_append, hsent, Exchange.filterMap_fetchSent_of_isSubmit hsubmit,
        List.append_nil]

/-- After a registration that succeeded, everything is kept. -/
theorem stored_of_ok (hkeeps : server.Keeps stored) (hreachable : s.compilation.Reachable)
    {receipt : Receipt} (h : ((register server).runFrom s).value = (.ok receipt, between))
    {id : Identifier} (hid : id ∈ s.compilation.ids) : id ∈ stored between.link.state := by
  rcases register_cases server s with ⟨e, -, hresult⟩ | ⟨n, e, -, -, hresult⟩ |
    ⟨n, unit, -, hunit, -, huploaded⟩
  · rw [h] at hresult
    cases hresult
  · rw [h] at hresult
    cases hresult
  · rw [h] at huploaded
    have hids : unit.ids = s.compilation.ids :=
      (unit_ids_eq hunit).trans (s.compilation.ids_resolved server s.link s.notes)
    have hnodup := hids ▸ hreachable.consistent.ids_nodup
    obtain ⟨-, hstored⟩ := huploaded.complete.tells hkeeps hnodup
    rw [hstored, hids]
    exact .inr hid

/-- What was compiled once is compiled again when all workflows are steady. -/
theorem unit_eq_of_steady (hsteady : ∀ w ∈ s.compilation.workflows, w.Steady)
    (hbetween : between.compilation = s.compilation.resolved server s.link s.notes)
    (h : (compile.runFrom ((resolveReferences server).runFrom s).value.2).value.1 = .ok unit) :
    (compile.runFrom ((resolveReferences server).runFrom between).value.2).value.1 = .ok unit := by
  have hopen : between.compilation.registry.unresolved = [] :=
    hbetween ▸ (Compilation.bundle_of_compile (compile_eq_ok h)).1
  have hsame : ((resolveReferences server).runFrom between).value.2 = between := by
    rw [value_runFrom_resolveReferences, Registry.resolve_of_resolved hopen]
  have hsteady' : between.compilation.compile.Steady :=
    Compilation.steady_compile (hbetween ▸ hsteady)
  rw [hsame, value_runFrom_compile]
  refine (hsteady' between.notes ((resolveReferences server).runFrom s).value.2.notes).trans ?_
  rw [hbetween]
  exact h

/-- A registration in which nothing goes wrong takes up where an earlier one of the same compilation
    has ended, however that was. After one that succeeded there is nothing left to do; and steady
    workflows are handed in again as they were. -/
theorem register_resumes (hkeeps : server.Keeps stored) (hreachable : s.compilation.Reachable)
    (hfirst : ((register server).runFrom s).value = (outcome, between))
    (hresolved : ((resolveReferences server).runFrom between).value.2 = resolved)
    (hread : ∀ f ∈ (server.askAll between.compilation.registry.unresolved between.link.state).1,
      ∃ remote, f.reading = .ok remote)
    (hcompile : (compile.runFrom resolved).value.1 = .ok unit)
    (hserve : ∀ call ∈ (server.takeEach unit.handIns resolved.link.state).1,
      call.submission.id ∉ stored between.link.state → call.reply.Creates) :
    ∃ receipt after, ((register server).runFrom between).value = (.ok receipt, after) ∧
      Resumed stored s.compilation.ids between receipt after ∧
      between.compilation.registry.unresolved ⊆ s.compilation.registry.unresolved ∧
      (∀ earlier, outcome = .ok earlier →
        ∀ status ∈ receipt.statuses, status.outcome = .alreadyRegistered) ∧
      ((∀ w ∈ s.compilation.workflows, w.Steady) → ∀ earlier,
        (compile.runFrom ((resolveReferences server).runFrom s).value.2).value.1 = .ok earlier →
        earlier = unit) := by
  have hbetween : between.compilation = s.compilation.resolved server s.link s.notes := by
    rw [← compilation_register, hfirst]
  have hreachable' : between.compilation.Reachable :=
    hbetween ▸ hreachable.resolve server s.link s.notes
  obtain ⟨receipt, after, hsecond, hresumed⟩ :=
    resumed_of_served hkeeps hreachable' hresolved hread hcompile hserve
  have hids : between.compilation.ids = s.compilation.ids := by
    rw [hbetween, s.compilation.ids_resolved]
  rw [hids] at hresumed
  refine ⟨receipt, after, hsecond, hresumed, ?_, ?_, ?_⟩
  · rw [hbetween]
    exact Registry.unresolved_subset hreachable.keys_nodup server s.link
  · rintro earlier rfl status hstatus
    rw [(hresumed.tells status hstatus).alreadyRegistered_iff]
    refine stored_of_ok hkeeps hreachable hfirst ?_
    rw [← hresumed.ids_eq]
    exact List.mem_map_of_mem hstatus
  · intro hsteady earlier hearlier
    have hsame := unit_eq_of_steady hsteady hbetween hearlier
    rw [hresolved, hcompile] at hsame
    exact (Except.ok.inj hsame).symm

/-- A server that keeps what is handed in, but whose answer is lost when it takes its second
    object. -/
def forgetfulServer : Server (List Identifier) where
  fetch _ kept := (⟨0, .ok ⟨200, Registry.greeting⟩⟩, kept)
  submit _ document kept :=
    match documentId? document with
    | none => (⟨0, .ok ⟨400, .null⟩⟩, kept)
    | some id =>
      if id ∈ kept then
        (⟨0, .ok ⟨409, .null⟩⟩, kept)
      else
        (⟨0, .ok (if kept.length = 1 then ⟨503, .null⟩ else ⟨200, .obj []⟩)⟩, id :: kept)

theorem forgetfulServer_keeps : forgetfulServer.Keeps fun kept => {id | id ∈ kept} where
  fetch _ _ := rfl
  submit_new path document kept id hid hnew := by
    have hvalue : forgetfulServer.submit path document kept =
        (⟨0, .ok (if kept.length = 1 then ⟨503, .null⟩ else ⟨200, .obj []⟩)⟩, id :: kept) := by
      simp only [forgetfulServer, hid]
      exact if_neg hnew
    have hstored : {x | x ∈ id :: kept} = insert id {x | x ∈ kept} := by
      ext x
      simp
    rw [hvalue]
    by_cases hsecond : kept.length = 1
    · rw [if_pos hsecond]
      refine .inr ⟨?_, .inr hstored⟩
      have hfailed : (OpenSubmit.status ⟨⟨id, document⟩, ⟨0, .ok ⟨503, .null⟩⟩⟩).Failed := ⟨_, rfl⟩
      exact OpenSubmit.failed_status_iff.1 hfailed
    · rw [if_neg hsecond]
      exact .inl ⟨rfl, hstored⟩
  submit_kept path document kept id hid hold := by
    have hvalue : forgetfulServer.submit path document kept = (⟨0, .ok ⟨409, .null⟩⟩, kept) := by
      simp only [forgetfulServer, hid]
      exact if_pos hold
    rw [hvalue]
    exact ⟨⟨_, rfl, .inl rfl⟩, rfl⟩

/-- Declarations that have not been registered anywhere. -/
def unregistered : Session Unit (List Identifier) where
  compilation := (Compilation.declared ⟨"localhost", ⟨"p", "d", "v"⟩, { image := "image" }⟩
    Compilation.relayDeclarations).2
  link := ⟨[], []⟩
  notes := ()

/-- The first run loses the answer for the workflow. The second one finds the task and the workflow
    and adds the launch plan. -/
theorem unregistered_resumes :
    let first := ((register forgetfulServer).runFrom unregistered).value
    let second := ((register forgetfulServer).runFrom first.2).value
    first.1.toOption = none ∧
      second.1.toOption.map (fun receipt => receipt.statuses.map (·.outcome)) =
        some [.alreadyRegistered, .alreadyRegistered, .registered] ∧
      ∃ receipt, Resumed (fun kept => {id | id ∈ kept}) unregistered.compilation.ids first.2 receipt
        second.2 := by
  intro first second
  have hmissing : unregistered.compilation.settings.missing = [] := by decide +kernel
  have hreachable : unregistered.compilation.Reachable :=
    Compilation.reachable_declared hmissing Compilation.relayDeclarations
  have hopen : first.2.compilation.registry.unresolved = [] := by decide +kernel
  have hresolved : ((resolveReferences forgetfulServer).runFrom first.2).value.2 = first.2 := by
    rw [value_runFrom_resolveReferences, Registry.resolve_of_resolved hopen]
  have hread : ∀ f ∈ (forgetfulServer.askAll first.2.compilation.registry.unresolved
      first.2.link.state).1, ∃ remote, f.reading = .ok remote := by
    rw [hopen]
    simp [Server.askAll]
  have hcompile : (compile.runFrom first.2).value.1.toOption.isSome := by decide +kernel
  have hserve : (compile.runFrom first.2).value.1.toOption.map (fun unit =>
      (forgetfulServer.takeEach unit.handIns first.2.link.state).1.all fun call =>
        call.submission.id ∈ first.2.link.state ∨
          call.reply.answer.toOption = some ⟨200, .obj []⟩) = some true := by
    decide +kernel
  obtain ⟨unit, hunit⟩ := Option.isSome_iff_exists.1 hcompile
  rw [hunit, Option.map_some, Option.some_inj, List.all_eq_true] at hserve
  have hpair : ((register forgetfulServer).runFrom unregistered).value = (first.1, first.2) := rfl
  obtain ⟨receipt, after, hresult, hresumed, -⟩ := register_resumes forgetfulServer_keeps hreachable
    hpair hresolved hread (eq_ok_of_toOption hunit) fun call hcall hnew =>
      eq_ok_of_toOption ((of_decide_eq_true (hserve call hcall)).resolve_left hnew)
  refine ⟨by decide +kernel, by decide +kernel, receipt, ?_⟩
  have hafter : second.2 = after := congrArg Prod.snd hresult
  rw [hafter]
  exact hresumed

end Session

end TaskGraph
