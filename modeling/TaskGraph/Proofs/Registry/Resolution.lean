import TaskGraph.Proofs.Registry.Declarations
import TaskGraph.Proofs.Server.Schedule

namespace TaskGraph

variable {σ ω α : Type}

namespace Registry

/-- Registries that differ in nothing but the interfaces of references. -/
structure Alike (r after : Registry) : Prop where
  tasks_eq : after.tasks = r.tasks
  entries_eq : after.references.map Reference.entry = r.references.map Reference.entry

namespace Alike

variable {r between after : Registry}

theorem refl (r : Registry) : r.Alike r := ⟨rfl, rfl⟩

theorem trans (hfirst : r.Alike between) (hsecond : between.Alike after) : r.Alike after :=
  ⟨hsecond.tasks_eq.trans hfirst.tasks_eq, hsecond.entries_eq.trans hfirst.entries_eq⟩

theorem task?_eq (h : r.Alike after) (name : String) : after.task? name = r.task? name := by
  unfold task?
  rw [h.tasks_eq]

theorem map_reference?_eq (h : r.Alike after) (name : String) :
    (after.reference? name).map Reference.entry = (r.reference? name).map Reference.entry := by
  have hfind : ∀ references : List Reference,
      (references.find? (·.key == name)).map Reference.entry =
        (references.map Reference.entry).find? (·.nodeName == name) := by
    intro references
    rw [List.find?_map]
    rfl
  unfold reference?
  rw [hfind, hfind, h.entries_eq]

theorem held?_eq (h : r.Alike after) (name : String) : after.held? name = r.held? name := by
  unfold held?
  rw [h.task?_eq, h.map_reference?_eq]

theorem records (h : r.Alike after) {issues : List Issue} (hrecords : r.Records issues) :
    after.Records issues where
  disjoint name t ht := by
    rw [h.task?_eq] at ht
    have hentry := h.map_reference?_eq name
    rw [hrecords.disjoint name t ht] at hentry
    exact Option.map_eq_none_iff.1 hentry
  held_eq name := (h.held?_eq name).trans (hrecords.held_eq name)
  handle_eq := hrecords.handle_eq
  typed := hrecords.typed
  shared := hrecords.shared

end Alike

theorem entry_of_fillIn {ref filled : Reference} {remote : RemoteInterface}
    (h : ref.fillIn remote = .ok filled) : filled.entry = ref.entry := by
  unfold Reference.fillIn at h
  split at h
  · cases h
  · obtain rfl := Except.ok.inj h
    rfl

theorem alike_of_fillIn {r after : Registry} {key : String} {remote : RemoteInterface}
    (h : r.fillIn key remote = .ok after) : r.Alike after := by
  rw [fillIn, bind_eq_ok_iff] at h
  obtain ⟨references, hmapM, h⟩ := h
  obtain rfl := Except.ok.inj h
  refine ⟨rfl, map_of_mapM_eq_ok ?_ hmapM⟩
  intro ref filled hfilled
  split at hfilled
  · exact entry_of_fillIn hfilled
  · obtain rfl := Except.ok.inj hfilled
    rfl

/-- A routine that keeps all entries, however it ends. -/
def KeepsEntries (p : Routine (Registry × Link ω) α) : Prop :=
  ∀ s : Registry × Link ω, s.1.Alike (p.runFrom s).value.2.1

/-- The one step that writes to the registry fills in one interface. -/
theorem keepsEntries_settle (f : OpenFetch) :
    KeepsEntries (f.settle : Routine (Registry × Link ω) Unit) := by
  intro s
  rcases f.settle_cases s with ⟨e, -, h⟩ | ⟨remote, -, ⟨e, -, h⟩ | ⟨after, hfillIn, h⟩⟩
  · rw [h]
    exact .refl s.1
  · rw [h]
    exact .refl s.1
  · rw [h]
    exact alike_of_fillIn hfillIn

theorem keepsEntries_resolve (server : Server ω) : KeepsEntries (Registry.resolve server) := by
  intro s
  have hinv : RunInvariant server s.1.unresolved fun _ _ reached => s.1.Alike reached.1 :=
    { fetch := fun _ _ _ _ _ halike _ => halike
      settle := fun _ _ f reached _ halike _ _ => halike.trans (keepsEntries_settle f reached) }
  obtain ⟨_, _, -, halike, -⟩ := resolve_follows hinv s.2 (.refl s.1)
  exact halike

end Registry

/-- Filling in the interfaces of a session leaves the entries of its registry as they were. -/
theorem Session.alike_resolveReferences (server : Server ω) (s : Session σ ω) :
    s.compilation.registry.Alike
      ((resolveReferences server).runFrom s).value.2.compilation.registry :=
  Registry.keepsEntries_resolve server (s.compilation.registry, s.link)

end TaskGraph
