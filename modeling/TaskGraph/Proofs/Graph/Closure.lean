import TaskGraph.Proofs.Trace.Run

namespace TaskGraph

open Tracer

variable {σ : Type}

/-- What a node shows of the call for which it stands. -/
def GraphNode.fields (n : GraphNode) : String × String × List NodeInput := (n.id, n.name, n.inputs)

@[inherit_doc GraphNode.fields]
def Capture.fields (k : Capture) : String × String × List NodeInput :=
  (k.promise.node, k.target, k.inputs.map fun (v, b) => ⟨v, b⟩)

namespace Graph

/-- Whether the node `v` reads from the node `u`. -/
def Feeds (g : Graph) (u v : String) : Prop := ∃ n ∈ g.nodes, n.id = v ∧ u ∈ n.dependencies

/-- Whether a promise names a node of the graph and the output of what this node runs. -/
def HasOutput (g : Graph) (callables : Callables) (p : Promise) : Prop :=
  ∃ n ∈ g.nodes, n.id = p.node ∧
    ∃ c, callables.get? n.name = some c ∧ p.var = c.interface.output.name

/-- The graph of a workflow whose body made the captures of the history, in this order. The nodes
    stand by target, an order that does not show where edges go. -/
structure Recounts (g : Graph) (registry : Registry) (header : WorkflowHeader)
    (history : List Capture) : Prop where
  id_eq : g.id = header.id
  interface_eq : g.interface = header.interface
  ids_nodup : (g.nodes.map (·.id)).Nodup
  ids_inner : ∀ n ∈ g.nodes, n.id ≠ startNode ∧ n.id ≠ endNode
  /-- One node for each capture, with the inputs that it bound. -/
  nodes_perm : (g.nodes.map GraphNode.fields).Perm (history.map Capture.fields)
  targets : ∀ n ∈ g.nodes, registry.target? n.name = some n.target
  /-- Every promise names a declared input, or a node of the graph by its output. -/
  closed : ∀ i p, (i = g.output ∨ ∃ n ∈ g.nodes, i ∈ n.inputs) → i.binding = .promise p →
    (p.node = startNode ∧ p.var ∈ header.interface.inputNames) ∨ g.HasOutput registry.callables p
  /-- A node reads from nodes captured strictly before it. -/
  backward : ∀ n ∈ g.nodes, ∃ (i : Nat) (k : Capture), history[i]? = some k ∧
    k.promise.node = n.id ∧ ∀ u ∈ n.dependencies, u ≠ startNode →
      ∃ j < i, ∃ e : Capture, history[j]? = some e ∧ e.promise.node = u
  acyclic : ∀ id, ¬ Relation.TransGen g.Feeds id id

theorem nodeOfCall_eq_ok {registry : Registry} {id : String} {call : Call} {n : GraphNode}
    (h : nodeOfCall registry id call = .ok n) :
    n.fields = (id, call.target, call.inputs.map fun (v, b) => ⟨v, b⟩) ∧
      registry.target? n.name = some n.target := by
  unfold nodeOfCall at h
  split at h
  · next target htarget =>
    obtain rfl := Except.ok.inj h
    exact ⟨rfl, htarget⟩
  · cases h

theorem nodes_of_mapM_eq_ok {registry : Registry} {entries : List (String × Call)}
    {nodes : List GraphNode}
    (h : entries.mapM (fun (id, call) => nodeOfCall registry id call) = .ok nodes) :
    nodes.map GraphNode.fields =
        (entries.map fun (id, call) =>
          (id, call.target, call.inputs.map fun (v, b) => (⟨v, b⟩ : NodeInput))) ∧
      ∀ n ∈ nodes, registry.target? n.name = some n.target := by
  constructor
  · refine map_of_mapM_eq_ok ?_ h
    rintro ⟨id, call⟩ n hnode
    exact (nodeOfCall_eq_ok hnode).1
  · refine forall_of_mapM_eq_ok ?_ h
    rintro ⟨id, call⟩ n hnode
    exact (nodeOfCall_eq_ok hnode).2

theorem ofCalls_eq_ok {registry : Registry} {log : CallLog} {result : Binding}
    {header : WorkflowHeader} {g : Graph} (h : ofCalls registry log result header = .ok g) :
    log.entries.mapM (fun (id, call) => nodeOfCall registry id call) = .ok g.nodes ∧
      g.id = header.id ∧ g.interface = header.interface ∧
      g.output = ⟨header.interface.output.name, result⟩ := by
  rw [ofCalls, bind_eq_ok_iff] at h
  obtain ⟨nodes, hnodes, h⟩ := h
  obtain rfl := Except.ok.inj h
  exact ⟨hnodes, rfl, rfl, rfl⟩

theorem mem_dependencies_iff {n : GraphNode} {u : String} :
    u ∈ n.dependencies ↔ ∃ i ∈ n.inputs, ∃ p, i.binding = .promise p ∧ p.node = u := by
  unfold GraphNode.dependencies
  rw [List.mem_filterMap]
  constructor
  · rintro ⟨i, hi, hnode⟩
    cases hbinding : i.binding with
    | promise p =>
      rw [hbinding] at hnode
      exact ⟨i, hi, p, hbinding, Option.some.inj hnode⟩
    | constant value type =>
      rw [hbinding] at hnode
      cases hnode
  · rintro ⟨i, hi, p, hbinding, rfl⟩
    exact ⟨i, hi, by rw [hbinding]; rfl⟩

section Backward

variable {g : Graph} {ids : List String} (hnodup : ids.Nodup) (hstart : startNode ∉ ids)
  (hbackward : ∀ n ∈ g.nodes, ∃ i : Nat, ids[i]? = some n.id ∧
    ∀ u ∈ n.dependencies, u ≠ startNode → ∃ j < i, ids[j]? = some u)

include hnodup hstart hbackward

/-- When every node reads from earlier members of a list of distinct ids only, a chain of edges
    leads from earlier to later members. -/
theorem lt_of_transGen {u v : String} (h : Relation.TransGen g.Feeds u v) (hu : u ≠ startNode) :
    ∃ i j : Nat, i < j ∧ ids[i]? = some u ∧ ids[j]? = some v := by
  induction h with
  | single hedge =>
    obtain ⟨n, hn, rfl, hdep⟩ := hedge
    obtain ⟨i, hi, hdeps⟩ := hbackward n hn
    obtain ⟨j, hlt, hj⟩ := hdeps u hdep hu
    exact ⟨j, i, hlt, hj, hi⟩
  | @tail mid _ _ hedge ih =>
    obtain ⟨i, j, hlt, hi, hj⟩ := ih
    obtain ⟨n, hn, rfl, hdep⟩ := hedge
    obtain ⟨k, hk, hdeps⟩ := hbackward n hn
    have hmid : mid ≠ startNode := by
      rintro rfl
      exact hstart (List.mem_of_getElem? hj)
    obtain ⟨m, hmk, hm⟩ := hdeps mid hdep hmid
    have hlen : j < ids.length := (List.getElem?_eq_some_iff.1 hj).1
    have hjm : j = m := (List.getElem?_inj hlen hnodup).1 (hj.trans hm.symm)
    exact ⟨i, k, by omega, hi, hk⟩

theorem not_transGen_self (id : String) : ¬ Relation.TransGen g.Feeds id id := by
  intro h
  by_cases hid : id = startNode
  · have hedge : ∃ u, g.Feeds u id := by
      cases h with
      | single hedge => exact ⟨_, hedge⟩
      | tail _ hedge => exact ⟨_, hedge⟩
    obtain ⟨u, n, hn, hnode, -⟩ := hedge
    obtain ⟨i, hi, -⟩ := hbackward n hn
    rw [hnode, hid] at hi
    exact hstart (List.mem_of_getElem? hi)
  · obtain ⟨i, j, hlt, hi, hj⟩ := lt_of_transGen hnodup hstart hbackward h hid
    have hlen : i < ids.length := (List.getElem?_eq_some_iff.1 hi).1
    have hij : i = j := (List.getElem?_inj hlen hnodup).1 (hi.trans hj.symm)
    omega

end Backward

section Trace

variable {g : Graph} {t : Tracer} {history : List Capture}

theorem ids_perm (hperm : (g.nodes.map GraphNode.fields).Perm (history.map Capture.fields)) :
    (g.nodes.map (·.id)).Perm (history.map (·.promise.node)) := by
  have hfirst := hperm.map (·.1)
  rw [List.map_map, List.map_map] at hfirst
  exact hfirst

theorem exists_capture (hperm : (g.nodes.map GraphNode.fields).Perm (history.map Capture.fields))
    {n : GraphNode} (hn : n ∈ g.nodes) : ∃ k ∈ history, k.fields = n.fields :=
  List.mem_map.1 (hperm.mem_iff.1 (List.mem_map_of_mem hn))

variable (hhistory : t.HasHistory history)
  (hperm : (g.nodes.map GraphNode.fields).Perm (history.map Capture.fields))

include hhistory hperm

theorem hasOutput_of_mem {e : Capture} (he : e ∈ history) :
    g.HasOutput t.callables e.promise := by
  obtain ⟨n, hn, hfields⟩ := List.mem_map.1 (hperm.mem_iff.2 (List.mem_map_of_mem he))
  obtain ⟨hid, hrest⟩ := Prod.mk.inj hfields
  obtain ⟨hname, -⟩ := Prod.mk.inj hrest
  obtain ⟨i, c, -, hget, hpromise⟩ := hhistory.named e he
  exact ⟨n, hn, hid, c, hname ▸ hget, congrArg Promise.var hpromise⟩

/-- The place of a node in the history, and where its edges come from. -/
theorem exists_place {n : GraphNode} (hn : n ∈ g.nodes) :
    ∃ (i : Nat) (k : Capture), history[i]? = some k ∧ k.promise.node = n.id ∧
      ∀ input ∈ n.inputs, ∀ p, input.binding = .promise p →
        t.NamesInput p ∨ ∃ j < i, ∃ e : Capture, history[j]? = some e ∧ e.promise = p := by
  obtain ⟨k, hk, hfields⟩ := exists_capture hperm hn
  obtain ⟨hid, hrest⟩ := Prod.mk.inj hfields
  obtain ⟨-, hinputs⟩ := Prod.mk.inj hrest
  obtain ⟨i, hi⟩ := List.mem_iff_getElem?.1 hk
  refine ⟨i, k, hi, hid, ?_⟩
  intro input hinput p hbinding
  rw [← hinputs] at hinput
  obtain ⟨bound, hbound, rfl⟩ := List.mem_map.1 hinput
  exact hhistory.backward i k hi bound hbound p hbinding

theorem upstream_earlier {n : GraphNode} (hn : n ∈ g.nodes) :
    ∃ (i : Nat) (k : Capture), history[i]? = some k ∧ k.promise.node = n.id ∧
      ∀ u ∈ n.dependencies, u ≠ startNode →
        ∃ j < i, ∃ e : Capture, history[j]? = some e ∧ e.promise.node = u := by
  obtain ⟨i, k, hi, hid, hedges⟩ := exists_place hhistory hperm hn
  refine ⟨i, k, hi, hid, ?_⟩
  intro u hu hne
  obtain ⟨input, hinput, p, hbinding, rfl⟩ := mem_dependencies_iff.1 hu
  rcases hedges input hinput p hbinding with ⟨hstart, -⟩ | ⟨j, hlt, e, he, rfl⟩
  · exact absurd hstart hne
  · exact ⟨j, hlt, e, he, rfl⟩

theorem acyclic_of_hasHistory (id : String) : ¬ Relation.TransGen g.Feeds id id := by
  refine not_transGen_self hhistory.nodes_nodup ?_ ?_ id
  · intro hmem
    obtain ⟨k, hk, hstart⟩ := List.mem_map.1 hmem
    exact (hhistory.node_ne hk).1 hstart
  · intro n hn
    obtain ⟨i, k, hi, hid, hdeps⟩ := upstream_earlier hhistory hperm hn
    refine ⟨i, by rw [List.getElem?_map, hi, ← hid]; rfl, ?_⟩
    intro u hu hne
    obtain ⟨j, hlt, e, he, rfl⟩ := hdeps u hu hne
    exact ⟨j, hlt, by rw [List.getElem?_map, he]; rfl⟩

end Trace

/-- A log with a history, and a result that it admits, are assembled to a graph that recounts the
    history. -/
theorem recounts_of_ofCalls {registry : Registry} {header : WorkflowHeader} {g : Graph}
    {t : Tracer} {history : List Capture} {result : Binding}
    (hcallables : t.callables = registry.callables)
    (hinputs : t.inputs = header.interface.inputNames) (hhistory : t.HasHistory history)
    (hresult : t.admits result) (h : ofCalls registry t.calls result header = .ok g) :
    g.Recounts registry header history := by
  obtain ⟨hmapM, hid, hinterface, houtput⟩ := ofCalls_eq_ok h
  obtain ⟨hfields, htargets⟩ := nodes_of_mapM_eq_ok hmapM
  have hperm : (g.nodes.map GraphNode.fields).Perm (history.map Capture.fields) := by
    rw [hfields]
    have hentries := hhistory.entries_perm.map fun (e : String × Call) =>
      (e.1, e.2.target, e.2.inputs.map fun (v, b) => (⟨v, b⟩ : NodeInput))
    rw [List.map_map] at hentries
    exact hentries
  have hknown : ∀ p, t.NamesInput p ∨ (∃ e ∈ history, e.promise = p) →
      (p.node = startNode ∧ p.var ∈ header.interface.inputNames) ∨
        g.HasOutput registry.callables p := by
    rintro p (⟨hp, hvar⟩ | ⟨e, he, rfl⟩)
    · exact .inl ⟨hp, hinputs ▸ hvar⟩
    · exact .inr (hcallables ▸ hasOutput_of_mem hhistory hperm he)
  refine
    { id_eq := hid
      interface_eq := hinterface
      ids_nodup := (ids_perm hperm).nodup_iff.2 hhistory.nodes_nodup
      ids_inner := ?_
      nodes_perm := hperm
      targets := htargets
      closed := ?_
      backward := fun n hn => upstream_earlier hhistory hperm hn
      acyclic := acyclic_of_hasHistory hhistory hperm }
  · intro n hn
    obtain ⟨k, hk, hsame⟩ := exists_capture hperm hn
    rw [← (Prod.mk.inj hsame).1]
    exact hhistory.node_ne hk
  · rintro input p (rfl | ⟨n, hn, hinput⟩) hbinding
    · rw [houtput] at hbinding
      obtain rfl : result = .promise p := hbinding
      exact hknown p (hhistory.admitsPromise_iff.1 hresult)
    · obtain ⟨i, k, hi, hid, hedges⟩ := exists_place hhistory hperm hn
      rcases hedges input hinput p hbinding with hp | ⟨j, -, e, he, hpromise⟩
      · exact hknown p (.inl hp)
      · exact hknown p (.inr ⟨e, List.mem_of_getElem? he, hpromise⟩)

end Graph

/-- The histories of workflows that are traced one after the other. -/
def Workflow.histories (callables : Callables) : σ → List (Workflow σ) → List (List Capture)
  | _, [] => []
  | notes, w :: ws =>
    w.history callables notes ::
      histories callables ((w.trace callables .empty).runFrom notes).value.2 ws

namespace Compilation

theorem graphs_recount {registry : Registry} {log : CallLog} {ws : List (Workflow σ)}
    {notes notes' : σ} {gs : List Graph}
    (h : ((graphs registry registry.callables log ws).runFrom notes).value = (.ok gs, notes')) :
    gs.length = ws.length ∧ ∀ (i : Nat) (w : Workflow σ), ws[i]? = some w →
      ∃ (g : Graph) (history : List Capture), gs[i]? = some g ∧
        (Workflow.histories registry.callables notes ws)[i]? = some history ∧
        g.Recounts registry w.header history := by
  induction ws generalizing log notes notes' gs with
  | nil =>
    obtain ⟨hpair, -⟩ := Prod.mk.inj h
    obtain rfl := Except.ok.inj hpair
    simp
  | cons w ws ih =>
    rw [graphs, Routine.runFrom_bind_eq_ok_iff] at h
    obtain ⟨⟨result, traced⟩, between, htrace, h⟩ := h
    obtain ⟨t, ht, rfl, hadmits⟩ := Workflow.trace_eq_ok htrace
    dsimp only at h
    rw [Routine.runFrom_ofExcept_bind_eq_ok_iff] at h
    obtain ⟨g, hgraph, h⟩ := h
    rw [Routine.runFrom_bind_eq_ok_iff] at h
    obtain ⟨rest, _, hrest, h⟩ := h
    obtain ⟨hpair, -⟩ := Prod.mk.inj h
    obtain rfl := Except.ok.inj hpair
    obtain ⟨hlength, hrecount⟩ := ih hrest
    refine ⟨by rw [List.length_cons, List.length_cons, hlength], ?_⟩
    intro i v hv
    cases i with
    | zero =>
      obtain rfl := Option.some.inj hv
      refine ⟨g, _, rfl, rfl, ?_⟩
      have hframe := Tracer.frame_after (w.opening registry.callables)
        (w.calls registry.callables notes)
      have hhistory := w.hasHistory registry.callables notes
      rw [← ht] at hframe hhistory
      exact Graph.recounts_of_ofCalls hframe.1 hframe.2 hhistory hadmits hgraph
    | succ i =>
      obtain ⟨g', history, hg', hhistory, hrecounts⟩ := hrecount i v hv
      refine ⟨g', history, hg', ?_, hrecounts⟩
      rw [Workflow.trace_eq_trace_empty] at htrace
      rw [Workflow.histories, htrace]
      exact hhistory

/-- What is ready to be handed in when nothing was open and every workflow has its graph. -/
theorem bundle_of_compile {c : Compilation σ} {notes notes' : σ} {bundle : Bundle}
    (h : (c.compile.runFrom notes).value = (.ok bundle, notes')) :
    c.registry.unresolved = [] ∧
      ((graphs c.registry c.registry.callables .empty c.workflows).runFrom notes).value =
        (.ok bundle.workflows, notes') ∧
      bundle.tasks = c.registry.tasks.map (·.task) ∧
      bundle.launchPlans = bundle.workflows.map Graph.launchPlan := by
  rw [compile] at h
  dsimp only at h
  split at h
  · next hnone =>
    rw [Routine.runFrom_bind_eq_ok_iff] at h
    obtain ⟨gs, _, hgraphs, h⟩ := h
    obtain ⟨hpair, rfl⟩ := Prod.mk.inj h
    obtain rfl := Except.ok.inj hpair
    exact ⟨List.isEmpty_iff.1 hnone, hgraphs, rfl, rfl⟩
  · rw [Routine.runFrom_bind_eq_ok_iff] at h
    obtain ⟨_, _, hthrow, _⟩ := h
    cases hthrow

theorem compile_eq_ok {c : Compilation σ} {notes notes' : σ} {bundle : Bundle}
    (h : (c.compile.runFrom notes).value = (.ok bundle, notes')) :
    ((graphs c.registry c.registry.callables .empty c.workflows).runFrom notes).value =
      (.ok bundle.workflows, notes') :=
  (bundle_of_compile h).2.1

/-- There is one graph for each workflow, under the identity of the workflow. -/
theorem ids_of_compile {c : Compilation σ} {notes notes' : σ} {bundle : Bundle}
    (h : (c.compile.runFrom notes).value = (.ok bundle, notes')) :
    bundle.workflows.map (·.id) = c.workflows.map (·.header.id) := by
  obtain ⟨hlength, hgraphs⟩ := graphs_recount (compile_eq_ok h)
  apply List.ext_getElem?
  intro i
  rw [List.getElem?_map, List.getElem?_map]
  cases hw : c.workflows[i]? with
  | none =>
    have hge := List.getElem?_eq_none_iff.1 hw
    rw [List.getElem?_eq_none (by omega)]
    rfl
  | some w =>
    obtain ⟨g, _, hg, -, hrecounts⟩ := hgraphs i w hw
    rw [hg]
    exact congrArg some hrecounts.id_eq

/-- Every node of a compiled graph runs what the registry has under the node's name. -/
theorem target?_of_compile {c : Compilation σ} {notes notes' : σ} {bundle : Bundle}
    (h : (c.compile.runFrom notes).value = (.ok bundle, notes')) {g : Graph}
    (hg : g ∈ bundle.workflows) {n : GraphNode} (hn : n ∈ g.nodes) :
    c.registry.target? n.name = some n.target := by
  obtain ⟨hlength, hgraphs⟩ := graphs_recount (compile_eq_ok h)
  obtain ⟨i, hi⟩ := List.mem_iff_getElem?.1 hg
  have hlt : i < c.workflows.length := hlength ▸ (List.getElem?_eq_some_iff.1 hi).1
  obtain ⟨g', _, hg', -, hrecounts⟩ := hgraphs i _ (List.getElem?_eq_getElem hlt)
  obtain rfl := Option.some.inj (hi.symm.trans hg')
  exact hrecounts.targets n hn

/-- A workflow that goes on after a call with a forged promise. -/
def doubleTwice : Workflow Unit where
  header := ⟨⟨.workflow, "p", "d", "twice", "v"⟩, ⟨[⟨"n", .untyped⟩], ⟨"result", .untyped⟩⟩⟩
  mode := .sync
  body inputs notes :=
    .call "double" (.positional (inputs.map .bound)) fun first =>
      .call "double" (.positional [.bound (.promise ⟨"double-01", "y"⟩)]) fun _ =>
        match first with
        | .ok once =>
          .call "double" (.positional [.bound once]) fun second =>
            .finish notes (second.map Argument.bound)
        | .error e => .finish notes (.error e)

/-- One task and a workflow that calls it. -/
def doubling : Compilation Unit where
  settings := ⟨"localhost", ⟨"p", "d", "v"⟩, {}⟩
  registry :=
    { tasks :=
        [{ task :=
            { id := ⟨.task, "p", "d", "double", "v"⟩
              interface := ⟨[⟨"x", .untyped⟩], ⟨"y", .untyped⟩⟩
              container := ⟨"image", [], "in", "out"⟩
              taskType := "rust-task"
              cacheVersion := none
              secrets := [] }
           body := ⟨.sync, fun inputs => .ok (inputs.headD .null)⟩ }]
      references := [] }
  workflows := [doubleTwice]

end Compilation

end TaskGraph
