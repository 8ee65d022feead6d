import TaskGraph.Proofs.Trace.Isolation
import TaskGraph.Proofs.Graph.Closure
import Mathlib.Data.List.Basic
import Mathlib.Data.Option.Basic

namespace TaskGraph

variable {σ : Type}

section MapM

variable {α β γ : Type} {f g : α → Except Error β} {as : List α} {bs : List β}

theorem mapM_congr (h : ∀ a ∈ as, f a = g a) : as.mapM f = as.mapM g := by
  induction as with
  | nil => rfl
  | cons a as ih =>
    obtain ⟨ha, has⟩ := List.forall_mem_cons.1 h
    rw [List.mapM_cons, List.mapM_cons, ha, ih has]

theorem mapM_map_outcome (k : β → γ) :
    as.mapM (fun a => (f a).map k) = (as.mapM f).map (List.map k) := by
  induction as with
  | nil => rfl
  | cons a as ih =>
    rw [List.mapM_cons, List.mapM_cons, ih]
    cases f a with
    | error e => rfl
    | ok b =>
      cases as.mapM f with
      | error e => rfl
      | ok rest => rfl

/-- Each member of a list that was gone through has an outcome of its own. -/
theorem exists_of_mapM_eq_ok (h : as.mapM f = .ok bs) {a : α} (ha : a ∈ as) :
    ∃ b, f a = .ok b := by
  obtain ⟨i, hi⟩ := List.mem_iff_getElem?.1 ha
  obtain ⟨b, -, hb⟩ := getElem?_of_mapM_eq_ok h hi
  exact ⟨b, hb⟩

end MapM

/-- The binding of the result of a workflow, its graph and its launch plan, from a trace of its
    own. -/
def Workflow.outline (w : Workflow σ) (registry : Registry) (callables : Callables)
    (log : CallLog) : Routine σ (Binding × Graph × LaunchPlan) := do
  let (result, traced) ← w.trace callables log
  let graph ← Routine.ofExcept (Graph.ofCalls registry traced result w.header)
  return (result, graph, graph.launchPlan)

theorem Graph.ofCalls_congr {registry registry' : Registry} {log : CallLog}
    (h : ∀ entry ∈ log.entries,
      registry'.target? entry.2.target = registry.target? entry.2.target)
    (result : Binding) (header : WorkflowHeader) :
    ofCalls registry' log result header = ofCalls registry log result header := by
  have hnode : ∀ entry ∈ log.entries,
      nodeOfCall registry' entry.1 entry.2 = nodeOfCall registry entry.1 entry.2 := by
    intro entry hentry
    unfold nodeOfCall
    rw [h entry hentry]
  unfold ofCalls
  congr 1
  exact mapM_congr hnode

namespace Workflow

theorem value_outline (w : Workflow σ) (registry : Registry) (callables : Callables)
    (log : CallLog) (notes : σ) :
    ((w.outline registry callables log).runFrom notes).value.1 =
      ((w.trace callables log).runFrom notes).value.1 >>= fun traced =>
        (Graph.ofCalls registry traced.2 traced.1 w.header).map fun graph =>
          (traced.1, graph, graph.launchPlan) := by
  rw [outline, Routine.runFrom_bind, Logged.value_bind]
  generalize ((w.trace callables log).runFrom notes).value = ended
  obtain ⟨outcome, between⟩ := ended
  cases outcome with
  | error e => rfl
  | ok traced =>
    change _ = (Graph.ofCalls registry traced.2 traced.1 w.header).map _
    dsimp only
    rw [Routine.runFrom_bind, Routine.runFrom_ofExcept, pure_bind]
    cases Graph.ofCalls registry traced.2 traced.1 w.header with
    | error e => rfl
    | ok graph => rfl

/-- Everything in the log of a trace was called by the body. -/
theorem mem_callees_of_trace {w : Workflow σ} {callables : Callables} {log : CallLog} {notes : σ}
    {result : Binding} {traced : CallLog}
    (h : ((w.trace callables log).runFrom notes).value.1 = .ok (result, traced))
    {entry : String × Call} (hentry : entry ∈ traced.entries) :
    entry.2.target ∈ w.callees callables notes := by
  obtain ⟨t, ht, rfl, -⟩ := trace_eq_ok (Prod.ext h rfl)
  have hhistory := w.hasHistory callables notes
  rw [← ht] at hhistory
  obtain ⟨k, hk, rfl⟩ := List.mem_map.1 (hhistory.entries_perm.mem_iff.1 hentry)
  exact Tracer.mem_of_mem_captures hk

/-- What becomes of a workflow depends on nothing but the workflow and what stands under the names
    that its body calls. -/
theorem Pure.outline_eq {w : Workflow σ} (hpure : w.Pure) {registry registry' : Registry}
    {callables callables' : Callables} {notes : σ}
    (hknown : ∀ name ∈ w.callees callables notes,
      callables'.get? name = callables.get? name ∧
        registry'.target? name = registry.target? name)
    (log log' : CallLog) (notes' : σ) :
    ((w.outline registry' callables' log').runFrom notes').value.1 =
      ((w.outline registry callables log).runFrom notes).value.1 := by
  rw [value_outline, value_outline,
    hpure.trace_eq (fun name hname => (hknown name hname).1) log log' notes']
  cases htrace : ((w.trace callables log).runFrom notes).value.1 with
  | error e => rfl
  | ok traced =>
    obtain ⟨result, calls⟩ := traced
    have hgraph : Graph.ofCalls registry' calls result w.header =
        Graph.ofCalls registry calls result w.header :=
      Graph.ofCalls_congr (fun entry hentry =>
        (hknown _ (mem_callees_of_trace htrace hentry)).2) result w.header
    change (Graph.ofCalls registry' calls result w.header).map _ =
      (Graph.ofCalls registry calls result w.header).map _
    rw [hgraph]

end Workflow

namespace Compilation

/-- The same declarations with other workflows. -/
def withWorkflows (c : Compilation σ) (ws : List (Workflow σ)) : Compilation σ :=
  { c with workflows := ws }

/-- What becomes of the graph of a workflow that is compiled alone. -/
def graphAlone (c : Compilation σ) (notes : σ) (w : Workflow σ) : Except Error Graph :=
  ((w.outline c.registry c.registry.callables .empty).runFrom notes).value.1.map (·.2.1)

/-- The unit of graphs in their order. -/
def unitOf (c : Compilation σ) (graphs : List Graph) : Bundle where
  tasks := c.registry.tasks.map (·.task)
  workflows := graphs
  launchPlans := graphs.map Graph.launchPlan

/-- Each workflow has the graph that it has alone, whatever was traced before it. -/
theorem graphs_eq_mapM {c : Compilation σ} {ws : List (Workflow σ)} (hpure : ∀ w ∈ ws, w.Pure)
    (log : CallLog) (notes notes' : σ) :
    ((graphs c.registry c.registry.callables log ws).runFrom notes').value.1 =
      ws.mapM (c.graphAlone notes) := by
  induction ws generalizing log notes' with
  | nil => rfl
  | cons w ws ih =>
    obtain ⟨hw, hws⟩ := List.forall_mem_cons.1 hpure
    have halone : c.graphAlone notes w =
        ((w.trace c.registry.callables log).runFrom notes').value.1 >>= fun traced =>
          Graph.ofCalls c.registry traced.2 traced.1 w.header := by
      unfold graphAlone
      rw [← hw.outline_eq (fun _ _ => ⟨rfl, rfl⟩) CallLog.empty log notes', Workflow.value_outline]
      cases ((w.trace c.registry.callables log).runFrom notes').value.1 with
      | error e => rfl
      | ok traced =>
        change ((Graph.ofCalls c.registry traced.2 traced.1 w.header).map _).map _ =
          Graph.ofCalls c.registry traced.2 traced.1 w.header
        cases Graph.ofCalls c.registry traced.2 traced.1 w.header with
        | error e => rfl
        | ok graph => rfl
    rw [graphs, List.mapM_cons, halone, Routine.runFrom_bind, Logged.value_bind]
    generalize ((w.trace c.registry.callables log).runFrom notes').value = ended
    obtain ⟨outcome, between⟩ := ended
    cases outcome with
    | error e => rfl
    | ok traced =>
      obtain ⟨result, calls⟩ := traced
      change _ = Graph.ofCalls c.registry calls result w.header >>= _
      dsimp only
      rw [Routine.runFrom_bind, Routine.runFrom_ofExcept, pure_bind]
      cases Graph.ofCalls c.registry calls result w.header with
      | error e => rfl
      | ok graph =>
        change _ = ws.mapM (c.graphAlone notes) >>= _
        dsimp only
        rw [← ih hws calls between, Routine.runFrom_bind, Logged.value_bind]
        generalize ((graphs c.registry c.registry.callables calls ws).runFrom between).value = rest
        obtain ⟨outcome, last⟩ := rest
        cases outcome <;> rfl

/-- The outcome of a compilation, from what becomes of each workflow alone. -/
theorem value_compile {c : Compilation σ} (hpure : ∀ w ∈ c.workflows, w.Pure) (notes : σ) :
    (c.compile.runFrom notes).value.1 =
      if c.registry.unresolved.isEmpty then
        (c.workflows.mapM (c.graphAlone notes)).map c.unitOf
      else
        .error (.missingReference
          (Text.join ", " (c.registry.unresolved.map Reference.key)) .unresolved) := by
  unfold compile
  dsimp only
  split
  · rw [Routine.runFrom_bind, Logged.value_bind, ← graphs_eq_mapM hpure .empty notes notes]
    generalize ((graphs c.registry c.registry.callables .empty c.workflows).runFrom notes).value =
      ended
    obtain ⟨outcome, last⟩ := ended
    cases outcome <;> rfl
  · rfl

/-- Units put together to one over these tasks, graphs and launch plans each in their order. -/
def gather (tasks : List Task) (units : List Bundle) : Bundle where
  tasks
  workflows := units.flatMap (·.workflows)
  launchPlans := units.flatMap (·.launchPlans)

/-- A unit in which each workflow has the graph that `graphOf?` gives it, and its launch plan, in
    the order of the workflows. -/
structure Assigns (unit : Bundle) (ws : List (Workflow σ)) (graphOf? : Workflow σ → Option Graph) :
    Prop where
  workflows_eq : unit.workflows.map some = ws.map graphOf?
  launchPlans_eq : unit.launchPlans = unit.workflows.map Graph.launchPlan

theorem gather_unitOf (c : Compilation σ) (graphs : List Graph) :
    gather (c.registry.tasks.map (·.task)) (graphs.map fun graph => c.unitOf [graph]) =
      c.unitOf graphs := by
  unfold gather unitOf
  congr 1
  · rw [List.flatMap_map, List.flatMap_singleton']
  · rw [List.flatMap_map]
    exact List.map_eq_flatMap.symm

theorem assigns_unitOf {c : Compilation σ} {notes : σ} {ws : List (Workflow σ)}
    {graphs : List Graph} (h : ws.mapM (c.graphAlone notes) = .ok graphs) :
    Assigns (c.unitOf graphs) ws fun w => (c.graphAlone notes w).toOption where
  workflows_eq := map_of_mapM_eq_ok (fun w graph hgraph => by rw [hgraph]; rfl) h
  launchPlans_eq := rfl

/-- A compilation makes of its workflows what it makes of each of them alone, up to the first one
    that fails. -/
theorem compile_eq_gather {c : Compilation σ} (hpure : ∀ w ∈ c.workflows, w.Pure) (notes : σ) :
    (c.compile.runFrom notes).value.1 =
      ((c.withWorkflows []).compile.runFrom notes).value.1 >>= fun bare =>
        (c.workflows.mapM fun w => ((c.withWorkflows [w]).compile.runFrom notes).value.1).map
          (gather bare.tasks) := by
  have hbare := value_compile (c := c.withWorkflows []) (fun _ hmem => nomatch hmem) notes
  have halone : ∀ w ∈ c.workflows, ((c.withWorkflows [w]).compile.runFrom notes).value.1 =
      if c.registry.unresolved.isEmpty then
        (c.graphAlone notes w).map fun graph => c.unitOf [graph]
      else
        .error (.missingReference
          (Text.join ", " (c.registry.unresolved.map Reference.key)) .unresolved) := by
    intro w hw
    have hone : ∀ v ∈ (c.withWorkflows [w]).workflows, v.Pure := by
      intro v hv
      obtain rfl := List.mem_singleton.1 hv
      exact hpure v hw
    rw [value_compile hone]
    change (if c.registry.unresolved.isEmpty then
      Except.map c.unitOf ([w].mapM (c.graphAlone notes)) else _) = _
    rw [List.mapM_cons, List.mapM_nil]
    cases c.graphAlone notes w <;> rfl
  rw [hbare, value_compile hpure, mapM_congr halone]
  change (if c.registry.unresolved.isEmpty then _ else _) =
    (if c.registry.unresolved.isEmpty then Except.ok (c.unitOf []) else _) >>= _
  by_cases hresolved : c.registry.unresolved.isEmpty
  · simp only [if_pos hresolved]
    change _ = Except.map (gather (c.registry.tasks.map (·.task)))
      (c.workflows.mapM fun w => (c.graphAlone notes w).map fun graph => c.unitOf [graph])
    rw [mapM_map_outcome]
    cases c.workflows.mapM (c.graphAlone notes) with
    | error e => rfl
    | ok graphs => exact congrArg Except.ok (gather_unitOf c graphs).symm
  · simp only [if_neg hresolved]
    rfl

/-- Workflows in another order have the same graphs and launch plans, in that order. -/
theorem compile_of_perm {c : Compilation σ} (hpure : ∀ w ∈ c.workflows, w.Pure) {notes : σ}
    {unit : Bundle} (h : (c.compile.runFrom notes).value.1 = .ok unit) {ws : List (Workflow σ)}
    (hperm : ws.Perm c.workflows) :
    ∃ (unit' : Bundle) (graphOf? : Workflow σ → Option Graph),
      ((c.withWorkflows ws).compile.runFrom notes).value.1 = .ok unit' ∧
        unit'.tasks = unit.tasks ∧ Assigns unit c.workflows graphOf? ∧
        Assigns unit' ws graphOf? := by
  have hpure' : ∀ w ∈ (c.withWorkflows ws).workflows, w.Pure :=
    fun w hw => hpure w (hperm.mem_iff.1 hw)
  rw [value_compile hpure] at h
  rw [value_compile hpure']
  change ∃ _ _, (if c.registry.unresolved.isEmpty then
    Except.map c.unitOf (ws.mapM (c.graphAlone notes)) else _) = _ ∧ _
  by_cases hresolved : c.registry.unresolved.isEmpty
  · rw [if_pos hresolved] at h ⊢
    cases hgraphs : c.workflows.mapM (c.graphAlone notes) with
    | error e =>
      rw [hgraphs] at h
      cases h
    | ok graphs =>
      rw [hgraphs] at h
      obtain rfl := Except.ok.inj h
      obtain ⟨graphs', hgraphs'⟩ := exists_mapM_eq_ok fun w hw =>
        exists_of_mapM_eq_ok hgraphs (hperm.mem_iff.1 hw)
      rw [hgraphs']
      exact ⟨_, _, rfl, rfl, assigns_unitOf hgraphs, assigns_unitOf hgraphs'⟩
  · rw [if_neg hresolved] at h
    cases h

/-- What becomes of a workflow, its failure, or the binding of its result, its graph and its launch
    plan, depends on nothing but the workflow and what stands under the names that its body calls.
    So a compilation makes of its workflows what it makes of each of them alone, up to the first
    that fails, and their order is the order of the graphs and launch plans and of nothing else. -/
theorem compile_isolated :
    (∀ (w : Workflow σ) (registry registry' : Registry) (callables callables' : Callables)
        (log log' : CallLog) (notes notes' : σ), w.Pure →
      (∀ name ∈ w.callees callables notes, callables'.get? name = callables.get? name ∧
        registry'.target? name = registry.target? name) →
      ((w.outline registry' callables' log').runFrom notes').value.1 =
        ((w.outline registry callables log).runFrom notes).value.1) ∧
    ∀ (c : Compilation σ) (notes : σ), (∀ w ∈ c.workflows, w.Pure) →
      ((c.compile.runFrom notes).value.1 =
        ((c.withWorkflows []).compile.runFrom notes).value.1 >>= fun bare =>
          (c.workflows.mapM fun w => ((c.withWorkflows [w]).compile.runFrom notes).value.1).map
            (gather bare.tasks)) ∧
      ∀ unit, (c.compile.runFrom notes).value.1 = .ok unit → ∀ ws, ws.Perm c.workflows →
        ∃ (unit' : Bundle) (graphOf? : Workflow σ → Option Graph),
          ((c.withWorkflows ws).compile.runFrom notes).value.1 = .ok unit' ∧
            unit'.tasks = unit.tasks ∧ Assigns unit c.workflows graphOf? ∧
            Assigns unit' ws graphOf? := by
  constructor
  · intro w registry registry' callables callables' log log' notes notes' hpure hknown
    exact hpure.outline_eq hknown log log' notes'
  · intro c notes hpure
    refine ⟨compile_eq_gather hpure notes, ?_⟩
    intro unit hunit ws hperm
    exact compile_of_perm hpure hunit hperm

/-- A workflow that calls one task once. -/
def doubleOnce : Workflow Unit where
  header := ⟨⟨.workflow, "p", "d", "once", "v"⟩, ⟨[⟨"n", .untyped⟩], ⟨"result", .untyped⟩⟩⟩
  mode := .sync
  body inputs notes :=
    .call "double" (.positional (inputs.map .bound)) fun outcome =>
      .finish notes (outcome.map Argument.bound)

/-- A reference beside the task that the workflows call, and a call of another workflow in the log,
    leave the longer workflow as it is; and the two workflows can be declared in either order. -/
theorem doubled_in_isolation :
    let registry : Registry :=
      { doubling.registry with references := [⟨⟨.task, "p", "d", "spare", "v"⟩, .task, none⟩] }
    let log := (CallLog.empty.record "double" []).2
    ((doubleTwice.outline registry registry.callables log).runFrom ()).value.1 =
        ((doubleTwice.outline doubling.registry doubling.registry.callables .empty).runFrom
          ()).value.1 ∧
      ∃ unit unit',
        ((doubling.withWorkflows [doubleTwice, doubleOnce]).compile.runFrom ()).value.1 =
            .ok unit ∧
          ((doubling.withWorkflows [doubleOnce, doubleTwice]).compile.runFrom ()).value.1 =
            .ok unit' ∧
          unit'.workflows = unit.workflows.reverse := by
  have hpure : ∀ w : Workflow Unit, w.Pure := Workflow.pure_of_subsingleton
  obtain ⟨hoverview, hcompile⟩ := compile_isolated (σ := Unit)
  refine ⟨hoverview _ _ _ _ _ _ _ _ _ (hpure _) ?_, ?_⟩
  · intro name hname
    have hcallees : doubleTwice.callees doubling.registry.callables () =
        ["double", "double", "double"] := by decide +kernel
    rw [hcallees] at hname
    obtain rfl : name = "double" := by simpa using hname
    constructor
    · decide +kernel
    · decide +kernel
  · obtain ⟨unit, hunit⟩ : ∃ unit,
        ((doubling.withWorkflows [doubleTwice, doubleOnce]).compile.runFrom ()).value.1 =
          .ok unit := by
      apply Exists.intro
      rfl
    obtain ⟨-, hreorder⟩ := hcompile (doubling.withWorkflows [doubleTwice, doubleOnce]) ()
      fun w _ => hpure w
    obtain ⟨unit', graphOf?, hunit', -, hassigns, hassigns'⟩ :=
      hreorder unit hunit [doubleOnce, doubleTwice] (.swap _ _ _)
    refine ⟨unit, unit', hunit, hunit', List.map_injective_iff.2 (Option.some_injective _) ?_⟩
    rw [List.map_reverse, hassigns'.workflows_eq, hassigns.workflows_eq]
    rfl

end Compilation

end TaskGraph
