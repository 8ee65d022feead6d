import TaskGraph.Proofs.Registry.Handles
import TaskGraph.Proofs.Registry.Reachable
import Mathlib.Data.List.Nodup

namespace TaskGraph

variable {σ ω : Type}

/-- The identities of everything in a compiled unit. -/
def Bundle.ids (unit : Bundle) : List Identifier :=
  unit.tasks.map (·.id) ++ unit.workflows.map (·.id) ++ unit.launchPlans.map (·.id)

theorem Scope.nodup_map_identifier (scope : Scope) (resourceType : ResourceType)
    {names : List String} (h : names.Nodup) :
    (names.map (scope.identifier resourceType)).Nodup := by
  refine h.map ?_
  intro name name' heq
  exact congrArg Identifier.name heq

namespace Compilation

variable {c after : Compilation σ}

/-- Compilations in which names and identities determine each other. -/
structure Consistent (c : Compilation σ) : Prop where
  nodeNames_nodup : c.registry.nodeNames.Nodup
  task_id : ∀ t ∈ c.registry.tasks, t.task.id = c.settings.scope.identifier .task t.task.name
  workflow_id : ∀ w ∈ c.workflows, w.header.id = c.settings.scope.identifier .workflow w.name
  workflows_nodup : (c.workflows.map Workflow.name).Nodup

/-- The compilations that any declarations lead to, failed ones aside, with references filled in
    from any servers in between. -/
inductive Reachable : Compilation σ → Prop where
  | start {settings : Settings} {c : Compilation σ} : Compilation.start settings = .ok c →
      Reachable c
  | make {c after : Compilation σ} {d : Declaration σ} {issued : List Issue} : Reachable c →
      (c.make d).run.value = .ok (issued, after) → Reachable after
  | resolve {c : Compilation σ} {ω : Type} (server : Server ω) (link : Link ω) (notes : σ) :
      Reachable c → Reachable (c.resolved server link notes)

theorem consistent_start {settings : Settings} (h : Compilation.start settings = .ok c) :
    c.Consistent := by
  rw [Compilation.start, bind_eq_ok_iff] at h
  obtain ⟨-, -, h⟩ := h
  obtain rfl := Except.ok.inj h
  exact ⟨.nil, by simp [Registry.empty], by simp, .nil⟩

theorem Consistent.task (hc : c.Consistent) {task : Task} {body : TaskBody} {registry : Registry}
    (hid : task.id = c.settings.scope.identifier .task task.name)
    (h : c.registry.register task body = .ok registry) :
    Consistent { c with registry } where
  nodeNames_nodup := Registry.nodeNames_nodup_register hc.nodeNames_nodup h
  task_id t ht := by
    obtain ⟨-, rfl⟩ := Registry.register_eq_ok h
    rcases List.mem_append.1 ht with ht | ht
    · exact hc.task_id t ht
    · obtain rfl := List.mem_singleton.1 ht
      exact hid
  workflow_id := hc.workflow_id
  workflows_nodup := hc.workflows_nodup

theorem Consistent.reference (hc : c.Consistent) {ref : Reference} {handle : String}
    {registry : Registry} (h : (c.registry.declare ref).run.value = .ok (handle, registry)) :
    Consistent { c with registry } where
  nodeNames_nodup := Registry.nodeNames_nodup_declare hc.nodeNames_nodup h
  task_id t ht := by
    obtain ⟨-, -, ⟨_, -, -, rfl⟩ | ⟨-, rfl⟩⟩ := Registry.declare_eq_ok h
    · exact hc.task_id t ht
    · exact hc.task_id t ht
  workflow_id := hc.workflow_id
  workflows_nodup := hc.workflows_nodup

theorem Consistent.workflow (hc : c.Consistent) {w : Workflow σ}
    (hid : w.header.id = c.settings.scope.identifier .workflow w.name)
    (hfree : w.name ∉ c.workflows.map Workflow.name) :
    Consistent { c with workflows := c.workflows ++ [w] } where
  nodeNames_nodup := hc.nodeNames_nodup
  task_id := hc.task_id
  workflow_id v hv := by
    rcases List.mem_append.1 hv with hv | hv
    · exact hc.workflow_id v hv
    · obtain rfl := List.mem_singleton.1 hv
      exact hid
  workflows_nodup := by
    rw [List.map_append]
    refine List.nodup_append.2 ⟨hc.workflows_nodup, by simp, ?_⟩
    rintro name hname _ hlast rfl
    obtain rfl := List.mem_singleton.1 hlast
    exact hfree hname

theorem Consistent.make (hc : c.Consistent) {d : Declaration σ} {issued : List Issue}
    (h : (c.make d).run.value = .ok (issued, after)) : after.Consistent := by
  cases d with
  | task signature options body =>
    rw [Compilation.make, Action.run_bind_eq_ok_iff] at h
    obtain ⟨⟨handle, made⟩, htask, h⟩ := h
    obtain ⟨-, rfl⟩ := Prod.mk.inj (Except.ok.inj h)
    obtain ⟨task, registry, hid, -, hregister, rfl⟩ := task_eq_ok htask
    refine hc.task ?_ hregister
    rw [Task.name, hid]
    rfl
  | reference kind project domain name version =>
    rw [Compilation.make, Action.run_bind_eq_ok_iff] at h
    obtain ⟨⟨handle, made⟩, hreference, h⟩ := h
    obtain ⟨-, rfl⟩ := Prod.mk.inj (Except.ok.inj h)
    obtain ⟨registry, hdeclare, rfl⟩ := reference_eq_ok hreference
    exact hc.reference hdeclare
  | workflow signature options mode body =>
    rw [Compilation.make, Action.run_bind_eq_ok_iff] at h
    obtain ⟨made, hworkflow, h⟩ := h
    obtain ⟨-, rfl⟩ := Prod.mk.inj (Except.ok.inj h)
    obtain ⟨header, hid, hfree, rfl⟩ := workflow_eq_ok hworkflow
    exact hc.workflow hid hfree

theorem Consistent.resolved (hc : c.Consistent) (server : Server ω) (link : Link ω) (notes : σ) :
    (c.resolved server link notes).Consistent := by
  have halike := Session.alike_resolveReferences server ⟨c, link, notes⟩
  refine ⟨?_, ?_, hc.workflow_id, hc.workflows_nodup⟩
  · have hnames := halike.nodeNames_eq
    exact hnames ▸ hc.nodeNames_nodup
  · have htasks := halike.tasks_eq
    intro t ht
    exact hc.task_id t (htasks ▸ ht)

theorem Reachable.consistent (h : c.Reachable) : c.Consistent := by
  induction h with
  | start hstart => exact consistent_start hstart
  | make _ hmake ih => exact ih.make hmake
  | resolve server link notes _ ih => exact ih.resolved server link notes

theorem Reachable.keys_nodup (h : c.Reachable) :
    (c.registry.references.map Reference.key).Nodup :=
  Registry.keys_nodup_of_nodeNames h.consistent.nodeNames_nodup

/-- The identities of all that a compilation registers: its tasks, its workflows, and a launch plan
    for each workflow. -/
def ids (c : Compilation σ) : List Identifier :=
  c.registry.tasks.map (·.task.id) ++ c.workflows.map (·.header.id) ++
    c.workflows.map fun w => w.header.id.asResource .launchPlan

theorem unit_ids_eq {notes notes' : σ} {unit : Bundle}
    (h : (c.compile.runFrom notes).value = (.ok unit, notes')) : unit.ids = c.ids := by
  obtain ⟨-, -, htasks, hplans⟩ := bundle_of_compile h
  have hworkflows := ids_of_compile h
  have hlaunch : unit.launchPlans.map (·.id) =
      (unit.workflows.map (·.id)).map fun id => id.asResource .launchPlan := by
    rw [hplans, List.map_map, List.map_map]
    rfl
  rw [Bundle.ids, ids, hlaunch, hworkflows, htasks, List.map_map, List.map_map]
  rfl

theorem ids_resolved (c : Compilation σ) (server : Server ω) (link : Link ω) (notes : σ) :
    (c.resolved server link notes).ids = c.ids := by
  have htasks := (Session.alike_resolveReferences server ⟨c, link, notes⟩).tasks_eq
  unfold ids
  rw [← htasks]
  rfl

/-- The identities differ by the kind of the object, and within a kind by its name. -/
theorem Consistent.ids_nodup (hc : c.Consistent) : c.ids.Nodup := by
  let scope := c.settings.scope
  have htasks : c.registry.tasks.map (·.task.id) =
      (c.registry.tasks.map (·.task.name)).map (scope.identifier .task) := by
    rw [List.map_map]
    exact List.map_congr_left hc.task_id
  have hworkflows : c.workflows.map (·.header.id) =
      (c.workflows.map Workflow.name).map (scope.identifier .workflow) := by
    rw [List.map_map]
    exact List.map_congr_left hc.workflow_id
  have hplans : (c.workflows.map fun w => w.header.id.asResource .launchPlan) =
      (c.workflows.map Workflow.name).map (scope.identifier .launchPlan) := by
    rw [List.map_map]
    refine List.map_congr_left fun w hw => ?_
    rw [hc.workflow_id w hw]
    rfl
  have hnames := (List.nodup_append.1 hc.nodeNames_nodup).1
  have hdiffer : ∀ {type type' : ResourceType} {names names' : List String}, type ≠ type' →
      ∀ id ∈ names.map (scope.identifier type), ∀ id' ∈ names'.map (scope.identifier type'),
        id ≠ id' := by
    intro type type' names names' hne id hid id' hid' heq
    obtain ⟨_, -, rfl⟩ := List.mem_map.1 hid
    obtain ⟨_, -, rfl⟩ := List.mem_map.1 hid'
    exact hne (congrArg Identifier.resourceType heq)
  rw [ids, htasks, hworkflows, hplans]
  refine List.nodup_append.2 ⟨List.nodup_append.2 ⟨?_, ?_, hdiffer (by decide)⟩, ?_, ?_⟩
  · exact scope.nodup_map_identifier .task hnames
  · exact scope.nodup_map_identifier .workflow hc.workflows_nodup
  · exact scope.nodup_map_identifier .launchPlan hc.workflows_nodup
  · intro id hid
    rcases List.mem_append.1 hid with hid | hid
    · exact hdiffer (by decide) id hid
    · exact hdiffer (by decide) id hid

/-- Declarations made one after the other lead from one reachable compilation to another. -/
theorem Reachable.declareAll (h : c.Reachable) (ds : List (Declaration σ)) :
    (c.declareAll ds).2.Reachable := by
  induction ds generalizing c with
  | nil => exact h
  | cons d ds ih =>
    unfold Compilation.declareAll
    split
    · next issued after hmake => exact ih (h.make hmake)
    · exact ih h

theorem reachable_declared {settings : Settings} (h : settings.missing = [])
    (ds : List (Declaration σ)) : (declared settings ds).2.Reachable := by
  have hstart : (Compilation.start settings : Except Error (Compilation σ)) =
      .ok ⟨settings, .empty, []⟩ := by
    unfold Compilation.start Settings.validate
    rw [h]
    rfl
  exact Reachable.declareAll (.start hstart) ds

end Compilation

end TaskGraph
