import TaskGraph.Proofs.Registry.Resolution

namespace TaskGraph.Registry

variable {r after : Registry}

/-- The names under which nodes can be captured, of tasks and of references. -/
def nodeNames (r : Registry) : List String :=
  r.tasks.map (·.task.name) ++ r.references.map Reference.key

theorem held?_eq_none_iff_notMem {name : String} :
    r.held? name = none ↔ name ∉ r.nodeNames := by
  have htask : r.task? name = none ↔ name ∉ r.tasks.map (·.task.name) := by
    unfold task?
    simp [List.find?_eq_none]
  have href : r.reference? name = none ↔ name ∉ r.references.map Reference.key := by
    unfold reference?
    simp [List.find?_eq_none]
  rw [held?_eq_none_iff, htask, href, nodeNames, List.mem_append, not_or]

theorem keys_nodup_of_nodeNames (h : r.nodeNames.Nodup) :
    (r.references.map Reference.key).Nodup :=
  (List.nodup_append.1 h).2.1

theorem nodeNames_nodup_register {task : Task} {body : TaskBody} (hnodup : r.nodeNames.Nodup)
    (h : r.register task body = .ok after) : after.nodeNames.Nodup := by
  obtain ⟨hfree, rfl⟩ := register_eq_ok h
  have hnew := held?_eq_none_iff_notMem.1 hfree
  have hperm : (r.tasks.map (·.task.name) ++ task.name :: r.references.map Reference.key).Perm
      (task.name :: r.nodeNames) := List.perm_middle
  have hnames : nodeNames { r with tasks := r.tasks ++ [⟨task, body⟩] } =
      r.tasks.map (·.task.name) ++ task.name :: r.references.map Reference.key := by
    simp [nodeNames]
  rw [hnames, hperm.nodup_iff]
  exact List.nodup_cons.2 ⟨hnew, hnodup⟩

theorem nodeNames_nodup_declare {ref : Reference} {handle : String} (hnodup : r.nodeNames.Nodup)
    (h : (r.declare ref).run.value = .ok (handle, after)) : after.nodeNames.Nodup := by
  obtain ⟨-, htask, ⟨_, -, -, rfl⟩ | ⟨href, rfl⟩⟩ := declare_eq_ok h
  · exact hnodup
  · have hnew := held?_eq_none_iff_notMem.1 (held?_eq_none_iff.2 ⟨htask, href⟩)
    have hnames : nodeNames { r with references := r.references ++ [ref] } =
        r.nodeNames ++ [ref.key] := by
      simp [nodeNames]
    rw [hnames, (List.perm_append_singleton _ _).nodup_iff]
    exact List.nodup_cons.2 ⟨hnew, hnodup⟩

theorem Alike.keys_eq (h : r.Alike after) :
    after.references.map Reference.key = r.references.map Reference.key := by
  have hkeys : ∀ references : List Reference,
      references.map Reference.key = (references.map Reference.entry).map Entry.nodeName := by
    intro references
    rw [List.map_map]
    rfl
  rw [hkeys, h.entries_eq, ← hkeys]

theorem Alike.nodeNames_eq (h : r.Alike after) : after.nodeNames = r.nodeNames := by
  rw [nodeNames, nodeNames, h.tasks_eq, h.keys_eq]

/-- The registries that any declarations lead to, with runs against any servers in between. -/
inductive Reachable : Registry → Prop where
  | empty : Reachable .empty
  | register {r after : Registry} {task : Task} {body : TaskBody} : Reachable r →
      r.register task body = .ok after → Reachable after
  | declare {r after : Registry} {ref : Reference} {handle : String} : Reachable r →
      (r.declare ref).run.value = .ok (handle, after) → Reachable after
  | resolve {r : Registry} {ω : Type} (server : Server ω) (link : Link ω) : Reachable r →
      Reachable ((Registry.resolve server).runFrom (r, link)).value.2.1

theorem Reachable.nodeNames_nodup (h : r.Reachable) : r.nodeNames.Nodup := by
  induction h with
  | empty => exact .nil
  | register _ hregister ih => exact nodeNames_nodup_register ih hregister
  | declare _ hdeclare ih => exact nodeNames_nodup_declare ih hdeclare
  | @resolve r _ server link _ ih =>
    have halike := keepsEntries_resolve server (r, link)
    rw [halike.nodeNames_eq]
    exact ih

theorem Reachable.keys_nodup (h : r.Reachable) : (r.references.map Reference.key).Nodup :=
  keys_nodup_of_nodeNames h.nodeNames_nodup

end TaskGraph.Registry
