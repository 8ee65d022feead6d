import TaskGraph.Compilation
import TaskGraph.Proofs.Declaration.Interface

namespace TaskGraph

variable {σ : Type}

/-- What a declaration is for. -/
inductive Entry where
  | task (id : Identifier)
  | reference (kind : ReferenceKind) (id : Identifier)
  deriving DecidableEq

namespace Entry

/-- The node name: the name of a task, and the joined identity of a reference. -/
def nodeName : Entry → String
  | task id => id.name
  | reference _ id => Text.join "-" [id.project, id.domain, id.name, id.version]

/-- What nodes run that were captured through a handle for the entry. -/
def target : Entry → NodeTarget
  | task id => .task id
  | reference .task id => .task id
  | reference .launchPlan id => .launchPlan id

end Entry

/-- A handle that a declaration returned, and what it was declared for. -/
structure Issue where
  entry : Entry
  handle : String
  deriving DecidableEq

/-- What the first issue of a handle was for. -/
def firstIssued? (issues : List Issue) (handle : String) : Option Entry :=
  (issues.find? (·.handle == handle)).map (·.entry)

/-- What a reference was declared for. -/
def Reference.entry (r : Reference) : Entry := .reference r.kind r.id

namespace Registry

/-- What the registry holds under a name. -/
def held? (r : Registry) (name : String) : Option Entry :=
  match r.task? name with
  | some t => some (.task t.task.id)
  | none => (r.reference? name).map Reference.entry

/-- Whether a task or reference under a name has the identity of the entry. -/
def Holds (r : Registry) (name : String) : Entry → Prop
  | .task id => ∃ t, r.task? name = some t ∧ t.task.id = id
  | .reference kind id => ∃ ref, r.reference? name = some ref ∧ ref.kind = kind ∧ ref.id = id

/-- A registry that holds under every name what the name was first issued for. -/
structure Records (r : Registry) (issues : List Issue) : Prop where
  disjoint : ∀ name t, r.task? name = some t → r.reference? name = none
  held_eq : ∀ name, r.held? name = firstIssued? issues name
  handle_eq : ∀ i ∈ issues, i.handle = i.entry.nodeName
  typed : ∀ i ∈ issues, ∀ kind id,
    i.entry = .reference kind id → id.resourceType = kind.resourceType
  /-- Only references of one kind share a name. -/
  shared : ∀ i ∈ issues, ∀ e, firstIssued? issues i.handle = some e →
    e = i.entry ∨ ∃ kind id id', e = .reference kind id ∧ i.entry = .reference kind id'

end Registry

/-- A declaration as a program writes it. -/
inductive Declaration (σ : Type) where
  | task (signature : Signature) (options : TaskOptions) (body : TaskBody)
  | reference (kind : ReferenceKind) (project domain name version : String)
  | workflow (signature : Signature) (options : InterfaceOptions) (mode : Mode)
      (body : List Binding → σ → Body σ)

namespace Compilation

/-- Makes a declaration. A workflow has no handle. -/
def make (c : Compilation σ) : Declaration σ → Action (List Issue × Compilation σ)
  | .task signature options body => do
    let id := c.settings.scope.identifier .task (Text.trim signature.name)
    let (handle, after) ← c.task signature options body
    return ([⟨.task id, handle⟩], after)
  | .reference kind project domain name version => do
    let id : Identifier := ⟨kind.resourceType, project, domain, name, version⟩
    let (handle, after) ← c.reference kind project domain name version
    return ([⟨.reference kind id, handle⟩], after)
  | .workflow signature options mode body =>
    return ([], ← c.workflow signature options mode body)

/-- Makes declarations one after the other, going on after those that fail. -/
def declareAll (c : Compilation σ) : List (Declaration σ) → List Issue × Compilation σ
  | [] => ([], c)
  | d :: ds =>
    match (c.make d).run.value with
    | .ok (issued, after) =>
      let (issues, last) := after.declareAll ds
      (issued ++ issues, last)
    | .error _ => c.declareAll ds

end Compilation

theorem firstIssued?_append (issues more : List Issue) (handle : String) :
    firstIssued? (issues ++ more) handle =
      (firstIssued? issues handle).or (firstIssued? more handle) := by
  unfold firstIssued?
  rw [List.find?_append, Option.map_or]

theorem firstIssued?_singleton (i : Issue) (handle : String) :
    firstIssued? [i] handle = if i.handle = handle then some i.entry else none := by
  unfold firstIssued?
  rw [List.find?_singleton]
  by_cases h : i.handle = handle
  · simp [h]
  · simp [h]

theorem exists_firstIssued? {issues : List Issue} {i : Issue} (hi : i ∈ issues) :
    ∃ j ∈ issues, j.handle = i.handle ∧ firstIssued? issues i.handle = some j.entry := by
  cases hfind : issues.find? (·.handle == i.handle) with
  | none =>
    have hnone := List.find?_eq_none.1 hfind i hi
    simp at hnone
  | some j =>
    have hhandle := List.find?_some hfind
    refine ⟨j, List.mem_of_find?_eq_some hfind, by simpa using hhandle, ?_⟩
    unfold firstIssued?
    rw [hfind]
    rfl

namespace Registry

variable {r after : Registry}

theorem target?_eq (r : Registry) (name : String) :
    r.target? name = (r.held? name).map Entry.target := by
  unfold target? held?
  cases r.task? name with
  | some t => rfl
  | none =>
    cases r.reference? name with
    | none => rfl
    | some ref =>
      obtain ⟨id, kind, interface⟩ := ref
      cases kind <;> rfl

theorem holds_iff (hdisjoint : ∀ name t, r.task? name = some t → r.reference? name = none)
    {name : String} {entry : Entry} : r.Holds name entry ↔ r.held? name = some entry := by
  unfold held?
  cases htask : r.task? name with
  | some t =>
    have href := hdisjoint name t htask
    cases entry with
    | task id => simp [Holds, htask]
    | reference kind id => simp [Holds, href]
  | none =>
    cases entry with
    | task id =>
      cases href : r.reference? name with
      | none => simp [Holds, htask]
      | some ref => simp [Holds, htask, Reference.entry]
    | reference kind id =>
      cases href : r.reference? name with
      | none => simp [Holds, href]
      | some ref => simp [Holds, href, Reference.entry]

theorem held?_eq_none_iff {name : String} :
    r.held? name = none ↔ r.task? name = none ∧ r.reference? name = none := by
  unfold held?
  cases r.task? name with
  | some t => simp
  | none => simp

theorem register_eq_ok {task : Task} {body : TaskBody} (h : r.register task body = .ok after) :
    r.held? task.name = none ∧ after = { r with tasks := r.tasks ++ [⟨task, body⟩] } := by
  unfold register at h
  dsimp only at h
  split at h
  · cases h
  · next hfree =>
    obtain rfl := Except.ok.inj h
    rw [held?_eq_none_iff]
    simpa using hfree

theorem declare_eq_ok {ref : Reference} {handle : String}
    (h : (r.declare ref).run.value = .ok (handle, after)) :
    handle = ref.key ∧ r.task? ref.key = none ∧
      ((∃ existing, r.reference? ref.key = some existing ∧ existing.kind = ref.kind ∧ after = r) ∨
        (r.reference? ref.key = none ∧
          after = { r with references := r.references ++ [ref] })) := by
  unfold declare at h
  dsimp only at h
  split at h
  · cases h
  · next htask =>
    rw [Bool.not_eq_true, Option.isSome_eq_false_iff, Option.isNone_iff_eq_none] at htask
    split at h
    · next existing href =>
      split at h
      · cases h
      · next hkind =>
        rw [Action.run_bind_eq_ok_iff] at h
        obtain ⟨_, -, h⟩ := h
        obtain ⟨hhandle, hafter⟩ := Prod.mk.inj (Except.ok.inj h)
        refine ⟨hhandle.symm, htask, .inl ⟨existing, href, ?_, hafter.symm⟩⟩
        exact Decidable.not_not.1 hkind
    · next href =>
      obtain ⟨hhandle, hafter⟩ := Prod.mk.inj (Except.ok.inj h)
      exact ⟨hhandle.symm, htask, .inr ⟨href, hafter.symm⟩⟩

theorem task?_concat (t : RegisteredTask) (name : String) :
    Registry.task? { r with tasks := r.tasks ++ [t] } name =
      (r.task? name).or (if t.task.name = name then some t else none) := by
  unfold task?
  rw [List.find?_append, List.find?_singleton]
  by_cases h : t.task.name = name
  · simp [h]
  · simp [h]

theorem reference?_concat (ref : Reference) (name : String) :
    Registry.reference? { r with references := r.references ++ [ref] } name =
      (r.reference? name).or (if ref.key = name then some ref else none) := by
  unfold reference?
  rw [List.find?_append, List.find?_singleton]
  by_cases h : ref.key = name
  · simp [h]
  · simp [h]

theorem held?_register {task : Task} {body : TaskBody} (h : r.register task body = .ok after)
    (name : String) : after.held? name =
      (r.held? name).or (if task.name = name then some (.task task.id) else none) := by
  obtain ⟨hfree, rfl⟩ := register_eq_ok h
  by_cases hname : task.name = name
  · subst hname
    obtain ⟨htask, -⟩ := held?_eq_none_iff.1 hfree
    rw [hfree]
    unfold held?
    rw [task?_concat, htask]
    simp
  · unfold held?
    rw [task?_concat]
    simp only [if_neg hname, Option.or_none]
    rfl

theorem held?_declare {ref : Reference} {handle : String}
    (h : (r.declare ref).run.value = .ok (handle, after)) (name : String) :
    after.held? name = (r.held? name).or (if ref.key = name then some ref.entry else none) := by
  obtain ⟨-, htask, ⟨existing, href, -, rfl⟩ | ⟨href, rfl⟩⟩ := declare_eq_ok h
  · by_cases hname : ref.key = name
    · subst hname
      have hentry : after.held? ref.key = some existing.entry := by
        unfold held?
        rw [htask, href]
        rfl
      rw [hentry, Option.some_or]
    · rw [if_neg hname, Option.or_none]
  · by_cases hname : ref.key = name
    · subst hname
      rw [held?_eq_none_iff.2 ⟨htask, href⟩]
      unfold held?
      rw [reference?_concat, href]
      change (match r.task? ref.key with | some t => _ | none => _) = _
      rw [htask]
      simp
    · unfold held?
      rw [reference?_concat]
      simp only [if_neg hname, Option.or_none]
      rfl

theorem records_empty : Registry.empty.Records [] where
  disjoint _ _ h := by cases h
  held_eq _ := rfl
  handle_eq _ hi := by cases hi
  typed _ hi := by cases hi
  shared _ hi := by cases hi

variable {issues : List Issue}

theorem Records.concat (hrecords : r.Records issues) {i : Issue}
    (hdisjoint : ∀ name t, after.task? name = some t → after.reference? name = none)
    (hentry : ∀ name, after.held? name =
      (r.held? name).or (if i.handle = name then some i.entry else none))
    (hhandle : i.handle = i.entry.nodeName)
    (htyped : ∀ kind id, i.entry = .reference kind id → id.resourceType = kind.resourceType)
    (hshared : ∀ e, r.held? i.handle = some e →
      ∃ kind id id', e = .reference kind id ∧ i.entry = .reference kind id') :
    after.Records (issues ++ [i]) where
  disjoint := hdisjoint
  held_eq name := by
    rw [hentry, firstIssued?_append, firstIssued?_singleton, hrecords.held_eq]
  handle_eq j hj := by
    rcases List.mem_append.1 hj with hj | hj
    · exact hrecords.handle_eq j hj
    · obtain rfl := List.mem_singleton.1 hj
      exact hhandle
  typed j hj := by
    rcases List.mem_append.1 hj with hj | hj
    · exact hrecords.typed j hj
    · obtain rfl := List.mem_singleton.1 hj
      exact htyped
  shared j hj e he := by
    rw [firstIssued?_append, firstIssued?_singleton] at he
    rcases List.mem_append.1 hj with hj | hj
    · obtain ⟨k, -, -, hfirst⟩ := exists_firstIssued? hj
      rw [hfirst, Option.some_or] at he
      exact hrecords.shared j hj e (hfirst.trans he)
    · obtain rfl := List.mem_singleton.1 hj
      rw [if_pos rfl, ← hrecords.held_eq] at he
      cases hold : r.held? j.handle with
      | some old =>
        rw [hold, Option.some_or] at he
        obtain rfl := Option.some.inj he
        exact .inr (hshared old hold)
      | none =>
        rw [hold, Option.none_or] at he
        exact .inl (Option.some.inj he).symm

theorem Records.register (hrecords : r.Records issues) {task : Task} {body : TaskBody}
    (h : r.register task body = .ok after) :
    after.Records (issues ++ [⟨.task task.id, task.name⟩]) := by
  have hentry := held?_register h
  obtain ⟨hfree, rfl⟩ := register_eq_ok h
  refine hrecords.concat ?_ hentry rfl (fun _ _ heq => by cases heq) ?_
  · obtain ⟨-, href⟩ := held?_eq_none_iff.1 hfree
    intro name t ht
    rw [task?_concat] at ht
    by_cases hname : task.name = name
    · exact hname ▸ href
    · rw [if_neg hname, Option.or_none] at ht
      exact hrecords.disjoint name t ht
  · intro e he
    rw [hfree] at he
    cases he

theorem Records.declare (hrecords : r.Records issues) {ref : Reference} {handle : String}
    (htyped : ref.id.resourceType = ref.kind.resourceType)
    (h : (r.declare ref).run.value = .ok (handle, after)) :
    after.Records (issues ++ [⟨ref.entry, handle⟩]) := by
  have hentry := held?_declare h
  obtain ⟨rfl, htask, hafter⟩ := declare_eq_ok h
  refine hrecords.concat ?_ hentry rfl ?_ ?_
  · rcases hafter with ⟨-, -, -, rfl⟩ | ⟨-, rfl⟩
    · exact hrecords.disjoint
    · intro name t ht
      rw [reference?_concat]
      by_cases hname : ref.key = name
      · subst hname
        have hsome : r.task? ref.key = some t := ht
        rw [htask] at hsome
        cases hsome
      · rw [if_neg hname, Option.or_none]
        exact hrecords.disjoint name t ht
  · intro kind id heq
    obtain ⟨rfl, rfl⟩ := Entry.reference.inj heq
    exact htyped
  · intro e he
    have hold : r.held? ref.key = (r.reference? ref.key).map Reference.entry := by
      unfold held?
      rw [htask]
    rcases hafter with ⟨existing, href, hkind, -⟩ | ⟨href, -⟩
    · rw [hold, href] at he
      obtain rfl := Option.some.inj he
      exact ⟨ref.kind, existing.id, ref.id, by rw [Reference.entry, hkind], rfl⟩
    · rw [hold, href] at he
      cases he

end Registry

theorem Reference.declare_eq_ok {kind : ReferenceKind} {project domain name version : String}
    {ref : Reference} (h : Reference.declare kind project domain name version = .ok ref) :
    ref = ⟨⟨kind.resourceType, project, domain, name, version⟩, kind, none⟩ := by
  unfold Reference.declare at h
  dsimp only at h
  split at h
  · exact (Except.ok.inj h).symm
  · cases h

namespace Compilation

theorem task_eq_ok {c after : Compilation σ} {signature : Signature} {options : TaskOptions}
    {body : TaskBody} {handle : String}
    (h : (c.task signature options body).run.value = .ok (handle, after)) :
    ∃ task registry, task.id = c.settings.scope.identifier .task (Text.trim signature.name) ∧
      handle = task.name ∧ c.registry.register task body = .ok registry ∧
      after = { c with registry } := by
  rw [Compilation.task, Action.run_bind_eq_ok_iff] at h
  obtain ⟨task, htask, h⟩ := h
  rw [Action.run_bind_eq_ok_iff] at h
  obtain ⟨registry, hregister, h⟩ := h
  rw [Action.run_bind_eq_ok_iff] at h
  obtain ⟨-, -, h⟩ := h
  obtain ⟨rfl, rfl⟩ := Prod.mk.inj (Except.ok.inj h)
  exact ⟨task, registry, (Task.declare_eq_ok htask).1, rfl, hregister, rfl⟩

theorem reference_eq_ok {c after : Compilation σ} {kind : ReferenceKind}
    {project domain name version : String} {handle : String}
    (h : (c.reference kind project domain name version).run.value = .ok (handle, after)) :
    ∃ registry, (c.registry.declare
        ⟨⟨kind.resourceType, project, domain, name, version⟩, kind, none⟩).run.value =
          .ok (handle, registry) ∧ after = { c with registry } := by
  rw [Compilation.reference, Action.run_bind_eq_ok_iff] at h
  obtain ⟨ref, href, h⟩ := h
  rw [Action.run_bind_eq_ok_iff] at h
  obtain ⟨⟨key, registry⟩, hdeclare, h⟩ := h
  obtain ⟨rfl, rfl⟩ := Prod.mk.inj (Except.ok.inj h)
  obtain rfl := Reference.declare_eq_ok href
  exact ⟨registry, hdeclare, rfl⟩

theorem workflow_eq_ok {c after : Compilation σ} {signature : Signature}
    {options : InterfaceOptions} {mode : Mode} {body : List Binding → σ → Body σ}
    (h : (c.workflow signature options mode body).run.value = .ok after) :
    ∃ header, header.id = c.settings.scope.identifier .workflow header.name ∧
      header.name ∉ c.workflows.map Workflow.name ∧
      after = { c with workflows := c.workflows ++ [⟨header, mode, body⟩] } := by
  rw [Compilation.workflow, Action.run_bind_eq_ok_iff] at h
  obtain ⟨header, hheader, h⟩ := h
  dsimp only at h
  split at h
  · cases h
  · next hfree =>
    obtain rfl := Except.ok.inj h
    refine ⟨header, (WorkflowHeader.declare_eq_ok hheader).1, ?_, rfl⟩
    intro hmem
    obtain ⟨w, hw, hname⟩ := List.mem_map.1 hmem
    exact hfree (List.any_eq_true.2 ⟨w, hw, by simpa using hname⟩)

theorem make_eq_ok {c after : Compilation σ} {d : Declaration σ} {issues issued : List Issue}
    (hrecords : c.registry.Records issues) (h : (c.make d).run.value = .ok (issued, after)) :
    after.registry.Records (issues ++ issued) := by
  cases d with
  | task signature options body =>
    rw [make, Action.run_bind_eq_ok_iff] at h
    obtain ⟨⟨handle, made⟩, htask, h⟩ := h
    obtain ⟨rfl, rfl⟩ := Prod.mk.inj (Except.ok.inj h)
    obtain ⟨task, registry, hid, rfl, hregister, rfl⟩ := task_eq_ok htask
    rw [← hid]
    exact hrecords.register hregister
  | reference kind project domain name version =>
    rw [make, Action.run_bind_eq_ok_iff] at h
    obtain ⟨⟨handle, made⟩, hreference, h⟩ := h
    obtain ⟨rfl, rfl⟩ := Prod.mk.inj (Except.ok.inj h)
    obtain ⟨registry, hdeclare, rfl⟩ := reference_eq_ok hreference
    exact hrecords.declare rfl hdeclare
  | workflow signature options mode body =>
    rw [make, Action.run_bind_eq_ok_iff] at h
    obtain ⟨made, hworkflow, h⟩ := h
    obtain ⟨rfl, rfl⟩ := Prod.mk.inj (Except.ok.inj h)
    obtain ⟨header, -, -, rfl⟩ := workflow_eq_ok hworkflow
    rw [List.append_nil]
    exact hrecords

theorem declareAll_records {c : Compilation σ} {issues : List Issue}
    (hrecords : c.registry.Records issues) (ds : List (Declaration σ)) :
    (c.declareAll ds).2.registry.Records (issues ++ (c.declareAll ds).1) := by
  induction ds generalizing c issues with
  | nil =>
    rw [declareAll, List.append_nil]
    exact hrecords
  | cons d ds ih =>
    unfold declareAll
    split
    · next issued after hmake =>
      rw [← List.append_assoc]
      exact ih (make_eq_ok hrecords hmake)
    · exact ih hrecords

end Compilation

end TaskGraph
