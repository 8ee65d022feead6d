import TaskGraph.Proofs.Graph.Closure
import TaskGraph.Proofs.Server.Resolution
import TaskGraph.Proofs.Server.Submission

namespace TaskGraph

open Routine

variable {σ ω : Type}

namespace Bundle

/-- The tasks of a unit as they are handed in: the identity of each, with its document. -/
def taskHandIns (unit : Bundle) : List Submission := unit.tasks.map fun t => ⟨t.id, t.toWire⟩

@[inherit_doc taskHandIns]
def workflowHandIns (unit : Bundle) : List Submission :=
  unit.workflows.map fun g => ⟨g.id, g.toWire⟩

@[inherit_doc taskHandIns]
def launchPlanHandIns (unit : Bundle) : List Submission :=
  unit.launchPlans.map fun p => ⟨p.id, p.toWire⟩

end Bundle

/-- The stages in which a unit is handed in, up to the first one with a failure. A failure reports
    the objects that failed in that stage, in the order in which they were declared. -/
inductive Uploaded (server : Server ω) (unit : Bundle) (before : Link ω) :
    Except Error Receipt → Link ω → Prop where
  | tasksFailed {tasks : List SubmitStatus} {after : Link ω} :
      Stage server "api/v1/tasks" unit.taskHandIns before tasks after →
      (∃ status ∈ tasks, status.Failed) →
      Uploaded server unit before (.error (.registration "tasks" (failures tasks))) after
  | workflowsFailed {tasks workflows : List SubmitStatus} {first after : Link ω} :
      Stage server "api/v1/tasks" unit.taskHandIns before tasks first →
      (∀ status ∈ tasks, ¬status.Failed) →
      Stage server "api/v1/workflows" unit.workflowHandIns first workflows after →
      (∃ status ∈ workflows, status.Failed) →
      Uploaded server unit before (.error (.registration "workflows" (failures workflows))) after
  | launchPlansFailed {tasks workflows launchPlans : List SubmitStatus}
      {first second after : Link ω} :
      Stage server "api/v1/tasks" unit.taskHandIns before tasks first →
      (∀ status ∈ tasks, ¬status.Failed) →
      Stage server "api/v1/workflows" unit.workflowHandIns first workflows second →
      (∀ status ∈ workflows, ¬status.Failed) →
      Stage server "api/v1/launch_plans" unit.launchPlanHandIns second launchPlans after →
      (∃ status ∈ launchPlans, status.Failed) →
      Uploaded server unit before
        (.error (.registration "launch plans" (failures launchPlans))) after
  | registered {tasks workflows launchPlans : List SubmitStatus} {first second after : Link ω} :
      Stage server "api/v1/tasks" unit.taskHandIns before tasks first →
      (∀ status ∈ tasks, ¬status.Failed) →
      Stage server "api/v1/workflows" unit.workflowHandIns first workflows second →
      (∀ status ∈ workflows, ¬status.Failed) →
      Stage server "api/v1/launch_plans" unit.launchPlanHandIns second launchPlans after →
      (∀ status ∈ launchPlans, ¬status.Failed) →
      Uploaded server unit before (.ok ⟨tasks, workflows, launchPlans⟩) after

namespace Session

theorem value_runFrom_resolveReferences (server : Server ω) (s : Session σ ω) :
    ((resolveReferences server).runFrom s).value =
      let filled := ((Registry.resolve server).runFrom (s.compilation.registry, s.link)).value
      (filled.1, { s with
        compilation := { s.compilation with registry := filled.2.1 }
        link := filled.2.2 }) := rfl

theorem value_runFrom_compile (s : Session σ ω) :
    ((compile : Routine (Session σ ω) Bundle).runFrom s).value =
      ((s.compilation.compile.runFrom s.notes).value.1,
        { s with notes := (s.compilation.compile.runFrom s.notes).value.2 }) := rfl

theorem compile_eq_ok {s : Session σ ω} {unit : Bundle}
    (h : (compile.runFrom s).value.1 = .ok unit) :
    (s.compilation.compile.runFrom s.notes).value =
      (.ok unit, (compile.runFrom s).value.2.notes) :=
  Prod.ext h rfl

theorem value_runFrom_submit (server : Server ω) (collection : Collection)
    (submissions : List Submission) (s : Session σ ω) :
    ((submit server collection submissions).runFrom s).value =
      (((collection.submit server submissions).runFrom s.link).value.1,
        { s with link := ((collection.submit server submissions).runFrom s.link).value.2 }) := rfl

/-- What a registration does after everything was compiled. -/
def upload (server : Server ω) (unit : Bundle) : Routine (Session σ ω) Receipt := do
  let tasks ← submit server .tasks (unit.tasks.map Task.submission)
  let workflows ← submit server .workflows (unit.workflows.map Graph.submission)
  let launchPlans ← submit server .launchPlans (unit.launchPlans.map LaunchPlan.submission)
  return { tasks, workflows, launchPlans }

theorem uploaded_of_upload (server : Server ω) (unit : Bundle) (s : Session σ ω) :
    Uploaded server unit s.link ((upload server unit).runFrom s).value.1
      ((upload server unit).runFrom s).value.2.link := by
  obtain ⟨tasks, first, hfirst, htasks⟩ :=
    Collection.tasks.submit_stage server (unit.tasks.map Task.submission) s.link
  obtain ⟨workflows, second, hsecond, hworkflows⟩ :=
    Collection.workflows.submit_stage server (unit.workflows.map Graph.submission) first
  obtain ⟨launchPlans, third, hthird, hlaunchPlans⟩ :=
    Collection.launchPlans.submit_stage server (unit.launchPlans.map LaunchPlan.submission) second
  unfold upload
  rw [runFrom_bind, Logged.value_bind, value_runFrom_submit, htasks]
  by_cases hnone : failures tasks = []
  · rw [if_pos hnone]
    rw [failures_eq_nil_iff] at hnone
    dsimp only
    rw [runFrom_bind, Logged.value_bind, value_runFrom_submit, hworkflows]
    by_cases hnone' : failures workflows = []
    · rw [if_pos hnone']
      rw [failures_eq_nil_iff] at hnone'
      dsimp only
      rw [runFrom_bind, Logged.value_bind, value_runFrom_submit, hlaunchPlans]
      by_cases hnone'' : failures launchPlans = []
      · rw [if_pos hnone'']
        rw [failures_eq_nil_iff] at hnone''
        exact .registered hfirst hnone hsecond hnone' hthird hnone''
      · rw [if_neg hnone'']
        exact .launchPlansFailed hfirst hnone hsecond hnone' hthird (failures_ne_nil_iff.1 hnone'')
    · rw [if_neg hnone']
      exact .workflowsFailed hfirst hnone hsecond (failures_ne_nil_iff.1 hnone')
  · rw [if_neg hnone]
    exact .tasksFailed hfirst (failures_ne_nil_iff.1 hnone)

/-- Resolving references hands in nothing, whatever becomes of it. -/
theorem resolveReferences_fetches (server : Server ω) (s : Session σ ω) :
    ∃ events, ((resolveReferences server).runFrom s).value.2.link.exchanges =
        s.link.exchanges ++ events ∧ ∀ e ∈ events, e.isFetch := by
  have hconcat : ∀ {exchanges : List Exchange} {e : Exchange}, e.isFetch →
      (∃ events, exchanges = s.link.exchanges ++ events ∧ ∀ e ∈ events, e.isFetch) →
      ∃ events, exchanges ++ [e] = s.link.exchanges ++ events ∧ ∀ e ∈ events, e.isFetch := by
    rintro _ e he ⟨events, rfl, hevents⟩
    exact ⟨events ++ [e], by rw [List.append_assoc],
      List.forall_mem_append.2 ⟨hevents, List.forall_mem_singleton.2 he⟩⟩
  have hinv : RunInvariant server s.compilation.registry.unresolved fun _ _ reached =>
      ∃ events, reached.2.exchanges = s.link.exchanges ++ events ∧ ∀ e ∈ events, e.isFetch :=
    { fetch := fun _ _ _ _ _ hfetches _ => hconcat rfl hfetches
      settle := fun _ _ f reached _ hfetches _ _ => by
        rw [f.link_runFrom_settle]
        exact hconcat rfl hfetches }
  obtain ⟨_, _, -, hfetches, -⟩ := Registry.resolve_follows hinv s.link
    ⟨[], by simp, by simp⟩
  exact hfetches

theorem register_of_error {server : Server ω} {s : Session σ ω} {e : Error}
    (h : ((resolveReferences server).runFrom s).value.1 = .error e) :
    ((register server).runFrom s).value =
      (.error e, ((resolveReferences server).runFrom s).value.2) := by
  unfold register
  rw [runFrom_bind, Logged.value_bind]
  generalize ((resolveReferences server).runFrom s).value = resolved at h ⊢
  obtain ⟨outcome, between⟩ := resolved
  cases h
  rfl

/-- After everything was resolved and compiled, a registration goes on to hand in the unit. -/
theorem register_of_ok {server : Server ω} {s between : Session σ ω} {n : Nat}
    (h : ((resolveReferences server).runFrom s).value = (.ok n, between)) :
    ((register server).runFrom s).value =
      match (compile.runFrom between).value with
      | (.ok unit, compiled) => ((upload server unit).runFrom compiled).value
      | (.error e, compiled) => (.error e, compiled) := by
  unfold register
  rw [runFrom_bind, Logged.value_bind, h]
  dsimp only
  rw [runFrom_bind, Logged.value_bind]
  generalize (compile.runFrom between).value = compiled
  obtain ⟨outcome, reached⟩ := compiled
  cases outcome with
  | ok unit =>
    dsimp only
    rw [runFrom_bind, runFrom_get, pure_bind]
    dsimp only
    rw [runFrom_bind, Logged.value_bind, value_runFrom_log]
    rfl
  | error e => rfl

/-- Everything that a registration can do: it ends where it cannot go on, or it goes on to hand in
    the unit. -/
theorem register_cases (server : Server ω) (s : Session σ ω) :
    let resolved := ((resolveReferences server).runFrom s).value
    let compiled := (compile.runFrom resolved.2).value
    let result := ((register server).runFrom s).value
    (∃ e, resolved.1 = .error e ∧ result = (.error e, resolved.2)) ∨
      (∃ n e, resolved.1 = .ok n ∧ compiled.1 = .error e ∧ result = (.error e, compiled.2)) ∨
      ∃ n unit, resolved.1 = .ok n ∧ compiled.1 = .ok unit ∧
        result = ((upload server unit).runFrom compiled.2).value ∧
        Uploaded server unit resolved.2.link result.1 result.2.link := by
  intro resolved compiled result
  cases hresolved : resolved.1 with
  | error e => exact .inl ⟨e, rfl, register_of_error hresolved⟩
  | ok n =>
    have hbetween : ((resolveReferences server).runFrom s).value = (.ok n, resolved.2) :=
      Prod.ext hresolved rfl
    have hresult : result = _ := register_of_ok hbetween
    cases hcompiled : compiled.1 with
    | error e =>
      have hpair : (compile.runFrom resolved.2).value = (.error e, compiled.2) :=
        Prod.ext hcompiled rfl
      rw [hpair] at hresult
      exact .inr (.inl ⟨n, e, rfl, rfl, hresult⟩)
    | ok unit =>
      have hpair : (compile.runFrom resolved.2).value = (.ok unit, compiled.2) :=
        Prod.ext hcompiled rfl
      rw [hpair] at hresult
      dsimp only at hresult
      have huploaded := uploaded_of_upload server unit compiled.2
      rw [← hresult] at huploaded
      exact .inr (.inr ⟨n, unit, rfl, rfl, hresult, huploaded⟩)

/-- Nothing is handed in unless every reference was resolved and every workflow was compiled. Then
    the tasks, the workflows and the launch plans are handed in, stage by stage. -/
theorem register_staged (server : Server ω) (s : Session σ ω) :
    let resolved := ((resolveReferences server).runFrom s).value
    let compiled := (compile.runFrom resolved.2).value
    let result := ((register server).runFrom s).value
    (∃ events, resolved.2.link.exchanges = s.link.exchanges ++ events ∧ ∀ e ∈ events, e.isFetch) ∧
    ((∃ e, resolved.1 = .error e ∧ result = (.error e, resolved.2)) ∨
      (∃ n e, resolved.1 = .ok n ∧ compiled.1 = .error e ∧
        result.1 = .error e ∧ result.2.link = resolved.2.link) ∨
      ∃ n unit, resolved.1 = .ok n ∧ compiled.1 = .ok unit ∧
        resolved.2.compilation.registry.unresolved = [] ∧
        unit.tasks = s.compilation.registry.tasks.map (·.task) ∧
        unit.workflows.map (·.id) = s.compilation.workflows.map (·.header.id) ∧
        unit.launchPlans = unit.workflows.map Graph.launchPlan ∧
        Uploaded server unit resolved.2.link result.1 result.2.link) := by
  intro resolved compiled result
  refine ⟨resolveReferences_fetches server s, ?_⟩
  rcases register_cases server s with ⟨e, he, hresult⟩ | ⟨n, e, hn, he, hresult⟩ |
    ⟨n, unit, hn, hunit, -, huploaded⟩
  · exact .inl ⟨e, he, hresult⟩
  · exact .inr (.inl ⟨n, e, hn, he, congrArg (·.1) hresult, congrArg (·.2.link) hresult⟩)
  · have hcompile := compile_eq_ok hunit
    obtain ⟨hnone, -, htasks, hplans⟩ := Compilation.bundle_of_compile hcompile
    have hids := Compilation.ids_of_compile hcompile
    have halike := alike_resolveReferences server s
    refine .inr (.inr ⟨n, unit, hn, hunit, hnone, ?_, hids, hplans, huploaded⟩)
    rw [htasks, halike.tasks_eq]

end Session

end TaskGraph
