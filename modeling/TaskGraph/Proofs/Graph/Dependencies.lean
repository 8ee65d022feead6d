import TaskGraph.Proofs.Compilation.Reachable
import TaskGraph.Proofs.Json.Fields
import Mathlib.Data.List.Nodup

namespace TaskGraph

open Json (Value)

variable {σ : Type}

theorem Callables.mem_of_get?_foldl_insert {made : List Callable} {cs : Callables} {name : String}
    {c : Callable} (h : (made.foldl insert cs).get? name = some c) :
    c ∈ made ∨ cs.get? name = some c := by
  induction made generalizing cs with
  | nil => exact .inr h
  | cons d rest ih =>
    rcases ih h with hmem | hget
    · exact .inl (List.mem_cons_of_mem _ hmem)
    · rw [get?_insert] at hget
      split at hget
      · obtain rfl := Option.some.inj hget
        exact .inl List.mem_cons_self
      · exact .inr hget

theorem Callables.name_of_get? {cs : Callables} {name : String} {c : Callable}
    (h : cs.get? name = some c) : c.name = name := by
  simpa using List.find?_some h

namespace Registry

variable {r : Registry}

/-- An entry under a key of its own is the one that is found under it. -/
theorem find?_of_mem {α : Type} {key : α → String} {entries : List α}
    (hnodup : (entries.map key).Nodup) {a : α} (ha : a ∈ entries) :
    entries.find? (key · == key a) = some a := by
  cases hfind : entries.find? (key · == key a) with
  | none =>
    have hnot := List.find?_eq_none.1 hfind a ha
    simp at hnot
  | some found =>
    have hkey : key found = key a := by simpa using List.find?_some hfind
    have hmem := List.mem_of_find?_eq_some hfind
    rw [List.inj_on_of_nodup_map hnodup hmem ha hkey]

theorem task?_of_mem (hnodup : r.nodeNames.Nodup) {t : RegisteredTask} (ht : t ∈ r.tasks) :
    r.task? t.task.name = some t := by
  obtain ⟨hnames, -, -⟩ := List.nodup_append.1 hnodup
  exact find?_of_mem hnames ht

theorem reference?_of_mem (hnodup : r.nodeNames.Nodup) {ref : Reference}
    (href : ref ∈ r.references) : r.task? ref.key = none ∧ r.reference? ref.key = some ref := by
  obtain ⟨-, hkeys, hdisjoint⟩ := List.nodup_append.1 hnodup
  refine ⟨?_, find?_of_mem hkeys href⟩
  unfold task?
  rw [List.find?_eq_none]
  intro t ht
  have hne := hdisjoint _ (List.mem_map_of_mem ht) _ (List.mem_map_of_mem href)
  simpa using hne

/-- What a call to a name is bound against and what the node of the call runs, when the name is
    that of a task or, failing that, of a resolved reference. -/
inductive Backed (tasks : List Task) (references : List Reference) (name : String) :
    CallableKind → NodeTarget → Prop where
  | task {t : Task} : t ∈ tasks → t.name = name → Backed tasks references name .task (.task t.id)
  | taskReference {ref : Reference} : (∀ t ∈ tasks, t.name ≠ name) → ref ∈ references →
      ref.isResolved → ref.key = name → ref.kind = .task →
      Backed tasks references name .taskReference (.task ref.id)
  | launchPlanReference {ref : Reference} : (∀ t ∈ tasks, t.name ≠ name) → ref ∈ references →
      ref.isResolved → ref.key = name → ref.kind = .launchPlan →
      Backed tasks references name .launchPlanReference (.launchPlan ref.id)

/-- What can be called under a name is what nodes of this name run, since the name belongs to one
    entry. -/
theorem target?_of_callable (hnodup : r.nodeNames.Nodup) {name : String} {c : Callable}
    (h : r.callables.get? name = some c) : ∃ target, r.target? name = some target ∧
      Backed (r.tasks.map (·.task)) r.references name c.kind target := by
  have hname := Callables.name_of_get? h
  rcases Callables.mem_of_get?_foldl_insert h with hmem | hempty
  · rcases List.mem_append.1 hmem with hmem | hmem
    · obtain ⟨t, ht, rfl⟩ := List.mem_map.1 hmem
      obtain rfl : t.task.name = name := hname
      refine ⟨.task t.task.id, ?_, .task (List.mem_map_of_mem ht) rfl⟩
      rw [target?, task?_of_mem hnodup ht]
    · obtain ⟨ref, href, hcallable⟩ := List.mem_filterMap.1 hmem
      obtain ⟨remote, hremote, rfl⟩ := Option.map_eq_some_iff.1 hcallable
      obtain rfl : ref.key = name := hname
      obtain ⟨htask, hreference⟩ := reference?_of_mem hnodup href
      have hother : ∀ t ∈ r.tasks.map (·.task), t.name ≠ ref.key := by
        intro t ht
        obtain ⟨registered, hregistered, rfl⟩ := List.mem_map.1 ht
        simpa using List.find?_eq_none.1 htask registered hregistered
      have hresolved : ref.isResolved := by
        rw [Reference.isResolved, hremote]
        rfl
      refine ⟨targetOfReference ref, by rw [target?, htask, hreference]; rfl, ?_⟩
      unfold targetOfReference
      cases hkind : ref.kind with
      | task => exact .taskReference hother href hresolved rfl hkind
      | launchPlan => exact .launchPlanReference hother href hresolved rfl hkind
  · cases hempty

end Registry

/-- The failure of the first workflow that cannot be traced, when they are traced one after the
    other. -/
def Workflow.firstFault? (callables : Callables) : σ → List (Workflow σ) → Option Error
  | _, [] => none
  | notes, w :: ws =>
    match ((w.trace callables .empty).runFrom notes).value with
    | (.ok _, later) => firstFault? callables later ws
    | (.error e, _) => some e

theorem Workflow.callable_of_mem_histories {callables : Callables} {notes : σ}
    {ws : List (Workflow σ)} {history : List Capture}
    (h : history ∈ Workflow.histories callables notes ws) {k : Capture} (hk : k ∈ history) :
    ∃ c, callables.get? k.target = some c := by
  induction ws generalizing notes with
  | nil => cases h
  | cons w ws ih =>
    rcases List.mem_cons.1 h with rfl | h
    · have hframe := Tracer.frame_after (w.opening callables) (w.calls callables notes)
      obtain ⟨_, c, -, hget, -⟩ := (w.hasHistory callables notes).named k hk
      rw [hframe.1] at hget
      exact ⟨c, hget⟩
    · exact ih h

/-- The calls of a trace can be assembled, since everything that they call is in the registry. -/
theorem Graph.exists_ofCalls {r : Registry} (hnodup : r.nodeNames.Nodup) {t : Tracer}
    {history : List Capture} (hcallables : t.callables = r.callables)
    (hhistory : t.HasHistory history) (result : Binding) (header : WorkflowHeader) :
    ∃ g, ofCalls r t.calls result header = .ok g := by
  have hnodes : ∀ entry ∈ t.calls.entries, ∃ n, nodeOfCall r entry.1 entry.2 = .ok n := by
    rintro ⟨id, call⟩ hentry
    obtain ⟨k, hk, hfields⟩ := List.mem_map.1 (hhistory.entries_perm.mem_iff.1 hentry)
    obtain ⟨-, hcall⟩ := Prod.mk.inj hfields
    obtain ⟨_, c, -, hget, -⟩ := hhistory.named k hk
    rw [hcallables] at hget
    obtain ⟨target, htarget, -⟩ := r.target?_of_callable hnodup hget
    have hfound : r.target? call.target = some target := by rw [← hcall]; exact htarget
    unfold nodeOfCall
    rw [hfound]
    exact ⟨_, rfl⟩
  obtain ⟨nodes, hmapM⟩ := exists_mapM_eq_ok hnodes
  unfold ofCalls
  rw [hmapM]
  exact ⟨_, rfl⟩

namespace Compilation

/-- Workflows have their graphs exactly when all of them can be traced; otherwise the failure is
    that of the first trace that fails. -/
theorem graphs_of_traces {r : Registry} (hnodup : r.nodeNames.Nodup) (ws : List (Workflow σ))
    (log : CallLog) (notes : σ) :
    ∃ gs, ((graphs r r.callables log ws).runFrom notes).value.1 =
      match Workflow.firstFault? r.callables notes ws with
      | some e => .error e
      | none => .ok gs := by
  induction ws generalizing log notes with
  | nil => exact ⟨[], rfl⟩
  | cons w ws ih =>
    rw [Workflow.firstFault?, graphs, Routine.runFrom_bind, Logged.value_bind,
      w.trace_eq_trace_empty r.callables log]
    cases htrace : ((w.trace r.callables .empty).runFrom notes).value with
    | mk outcome later =>
    cases outcome with
    | error e => exact ⟨[], rfl⟩
    | ok traced =>
      obtain ⟨result, calls⟩ := traced
      obtain ⟨t, ht, rfl, -⟩ := Workflow.trace_eq_ok htrace
      have hframe := Tracer.frame_after (w.opening r.callables) (w.calls r.callables notes)
      have hhistory := w.hasHistory r.callables notes
      rw [← ht] at hframe hhistory
      obtain ⟨g, hgraph⟩ := Graph.exists_ofCalls hnodup hframe.1 hhistory result w.header
      obtain ⟨gs, hrest⟩ := ih t.calls later
      refine ⟨g :: gs, ?_⟩
      dsimp only
      rw [Routine.runFrom_bind, Routine.runFrom_ofExcept, hgraph, pure_bind]
      dsimp only
      rw [Routine.runFrom_bind, Logged.value_bind]
      generalize ((graphs r r.callables t.calls ws).runFrom later).value = reached at hrest ⊢
      obtain ⟨outcome, last⟩ := reached
      dsimp only at hrest ⊢
      rw [hrest]
      cases Workflow.firstFault? r.callables later ws <;> rfl

end Compilation

/-- Whether the document of a node says that the node runs this, and nothing else. -/
def NodeTarget.WrittenIn (document : Value) : NodeTarget → Prop
  | task id => document.at? ["task_node", "reference_id"] = some id.toJson ∧
      document.get? "workflow_node" = none
  | launchPlan id => document.at? ["workflow_node", "launchplan_ref"] = some id.toJson ∧
      document.get? "task_node" = none

namespace GraphNode

/-- The fields of a node's document. -/
def fieldsOf (n : GraphNode) : List (String × Value) :=
  [("id", .str n.id), ("metadata", .obj [("name", .str n.name), ("retries", .obj [])]),
    ("inputs", .arr (n.inputs.map NodeInput.toWire)), n.target.field]

theorem fieldsOf_nodup (n : GraphNode) : (n.fieldsOf.map (·.1)).Nodup := by
  unfold fieldsOf
  cases n.target <;> simp [NodeTarget.field]

theorem get?_target (n : GraphNode) : n.toWire.get? n.target.field.1 = some n.target.field.2 :=
  Value.get?_ofFields n.fieldsOf_nodup (by simp [fieldsOf])

theorem get?_eq_none (n : GraphNode) {key : String} (hkey : key ∉ n.fieldsOf.map (·.1)) :
    n.toWire.get? key = none :=
  Value.get?_ofFields_eq_none n.fieldsOf_nodup hkey

theorem target_writtenIn (n : GraphNode) : n.target.WrittenIn n.toWire := by
  have hfield := n.get?_target
  cases htarget : n.target with
  | task id =>
    rw [htarget] at hfield
    refine ⟨?_, n.get?_eq_none (by simp [fieldsOf, htarget, NodeTarget.field])⟩
    rw [Value.at?_cons, show n.toWire.get? "task_node" = _ from hfield]
    rfl
  | launchPlan id =>
    rw [htarget] at hfield
    refine ⟨?_, n.get?_eq_none (by simp [fieldsOf, htarget, NodeTarget.field])⟩
    rw [Value.at?_cons, show n.toWire.get? "workflow_node" = _ from hfield]
    rfl

end GraphNode

namespace Compilation

/-- A unit in which everything that a node runs is declared or resolved. -/
structure Closed (c : Compilation σ) (unit : Bundle) : Prop where
  tasks_eq : unit.tasks = c.registry.tasks.map (·.task)
  /-- Every node runs what its call was bound against, and is written down so. -/
  backed : ∀ g ∈ unit.workflows, ∀ n ∈ g.nodes, ∃ callable,
    c.registry.callables.get? n.name = some callable ∧
      Registry.Backed unit.tasks c.registry.references n.name callable.kind n.target ∧
      n.target.WrittenIn n.toWire
  workflows_eq : unit.workflows.map (·.id) = c.workflows.map (·.header.id)
  launchPlans_eq : unit.launchPlans.map (·.workflowId) = unit.workflows.map (·.id)
  ids_nodup : unit.ids.Nodup

theorem closed_of_compile {c : Compilation σ} (hc : c.Consistent) {notes notes' : σ}
    {unit : Bundle} (h : (c.compile.runFrom notes).value = (.ok unit, notes')) :
    c.Closed unit := by
  obtain ⟨-, -, htasks, hplans⟩ := bundle_of_compile h
  refine
    { tasks_eq := htasks
      backed := ?_
      workflows_eq := ids_of_compile h
      launchPlans_eq := ?_
      ids_nodup := unit_ids_eq h ▸ hc.ids_nodup }
  · intro g hg n hn
    obtain ⟨hlength, hgraphs⟩ := graphs_recount (compile_eq_ok h)
    obtain ⟨i, hi⟩ := List.mem_iff_getElem?.1 hg
    have hlt : i < c.workflows.length := hlength ▸ (List.getElem?_eq_some_iff.1 hi).1
    obtain ⟨g', history, hg', hhistory, hrecounts⟩ := hgraphs i _ (List.getElem?_eq_getElem hlt)
    obtain rfl := Option.some.inj (hi.symm.trans hg')
    obtain ⟨k, hk, hfields⟩ := Graph.exists_capture hrecounts.nodes_perm hn
    have hname : k.target = n.name := congrArg (·.2.1) hfields
    obtain ⟨callable, hget⟩ :=
      Workflow.callable_of_mem_histories (List.mem_of_getElem? hhistory) hk
    rw [hname] at hget
    obtain ⟨target, htarget, hbacked⟩ := Registry.target?_of_callable hc.nodeNames_nodup hget
    obtain rfl : target = n.target :=
      Option.some.inj (htarget.symm.trans (hrecounts.targets n hn))
    exact ⟨callable, hget, htasks ▸ hbacked, n.target_writtenIn⟩
  · rw [hplans, List.map_map]
    rfl

/-- When every reference is resolved, only the trace of a workflow can keep a compilation from
    succeeding: nothing fails when graphs are assembled, and a unit is closed under what its nodes
    run. -/
theorem compile_closed {c : Compilation σ} (h : c.Reachable)
    (hresolved : c.registry.unresolved = []) (notes : σ) :
    (∀ e, Workflow.firstFault? c.registry.callables notes c.workflows = some e →
      (c.compile.runFrom notes).value.1 = .error e) ∧
    (Workflow.firstFault? c.registry.callables notes c.workflows = none →
      ∃ unit, (c.compile.runFrom notes).value.1 = .ok unit ∧ c.Closed unit) := by
  have hc := h.consistent
  obtain ⟨gs, hgraphs⟩ := graphs_of_traces hc.nodeNames_nodup c.workflows .empty notes
  have hcompile : (c.compile.runFrom notes).value.1 =
      match Workflow.firstFault? c.registry.callables notes c.workflows with
      | some e => .error e
      | none => .ok
          { tasks := c.registry.tasks.map (·.task)
            workflows := gs
            launchPlans := gs.map Graph.launchPlan } := by
    have hempty : c.registry.unresolved.isEmpty := List.isEmpty_iff.2 hresolved
    rw [compile]
    dsimp only
    rw [if_pos hempty, Routine.runFrom_bind, Logged.value_bind]
    generalize ((graphs c.registry c.registry.callables .empty c.workflows).runFrom notes).value =
      reached at hgraphs ⊢
    obtain ⟨outcome, last⟩ := reached
    dsimp only at hgraphs
    rw [hgraphs]
    cases Workflow.firstFault? c.registry.callables notes c.workflows <;> rfl
  constructor
  · intro e hfault
    rw [hcompile, hfault]
  · intro hfault
    rw [hfault] at hcompile
    exact ⟨_, hcompile, closed_of_compile hc (Prod.ext hcompile rfl)⟩

/-- A task, a reference to another one, and a workflow that calls first the reference and then, on
    its answer, the task. -/
def relayDeclarations : List (Declaration Unit) :=
  [.task ⟨"double", 1⟩ {} ⟨.sync, fun inputs => .ok (inputs.headD .null)⟩,
    .reference .task "p" "d" "greet" "v",
    .workflow ⟨"relay", 0⟩ {} .sync fun _ notes =>
      .call "p-d-greet-v" (.keyword []) fun greeting =>
        match greeting with
        | .ok text =>
          .call "double" (.positional [.bound text]) fun doubled =>
            .finish notes (doubled.map Argument.bound)
        | .error e => .finish notes (.error e)]

@[inherit_doc relayDeclarations]
def relay : Compilation Unit :=
  (declared ⟨"localhost", ⟨"p", "d", "v"⟩, { image := "image" }⟩ relayDeclarations).2.resolved
    uniformServer ⟨(), []⟩ ()

theorem relay_reachable : relay.Reachable := by
  have hmissing : (Settings.missing ⟨"localhost", ⟨"p", "d", "v"⟩, { image := "image" }⟩) = [] := by
    decide +kernel
  have hdeclared := reachable_declared hmissing relayDeclarations
  exact .resolve uniformServer ⟨(), []⟩ () hdeclared

theorem relay_closed : ∃ unit, (relay.compile.runFrom ()).value.1 = .ok unit ∧ relay.Closed unit ∧
    unit.workflows.map (fun g => g.nodes.map (·.name)) = [["p-d-greet-v", "double"]] := by
  have hresolved : relay.registry.unresolved = [] := by decide +kernel
  have htraced : (Workflow.firstFault? relay.registry.callables () relay.workflows).isNone := by
    decide +kernel
  have hnames : (relay.compile.runFrom ()).value.1.toOption.map (fun unit =>
      unit.workflows.map fun g => g.nodes.map (·.name)) = some [["p-d-greet-v", "double"]] := by
    decide +kernel
  obtain ⟨-, hclosed⟩ := compile_closed relay_reachable hresolved ()
  obtain ⟨unit, hcompile, hunit⟩ := hclosed (Option.isNone_iff_eq_none.1 htraced)
  rw [hcompile] at hnames
  exact ⟨unit, hcompile, hunit, Option.some.inj hnames⟩

end Compilation

end TaskGraph
