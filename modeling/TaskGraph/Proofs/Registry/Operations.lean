import TaskGraph.Proofs.Graph.Dependencies
import TaskGraph.Proofs.Lists.Correspondence

namespace TaskGraph

/-- Something that can be done to a registry. -/
inductive Operation where
  | register (task : Task) (body : TaskBody)
  | declare (reference : Reference)
  | fillIn (key : String) (interface : RemoteInterface)

namespace Operation

/-- The task that an operation brings. -/
def task? : Operation → Option RegisteredTask
  | register task body => some ⟨task, body⟩
  | _ => none

/-- The reference that an operation brings. -/
def reference? : Operation → Option Reference
  | declare reference => some reference
  | _ => none

end Operation

/-- A reference at a later time: its kind and identity are the same, and so is its interface once it
    is known. -/
structure Reference.Later (ref now : Reference) : Prop where
  entry_eq : now.entry = ref.entry
  kept : ref.isResolved → now = ref

/-- A task as it can be called: by its name, and with arguments in the order of its inputs. -/
def RegisteredTask.CalledAs (t : RegisteredTask) (c : Callable) : Prop :=
  c = { name := t.task.name
        kind := .task
        interface := t.task.interface
        convention := .positional }

/-- A reference as it can be called, once its interface is known: by its node name, and with
    arguments by name. The arguments of a task may also come in order when the server has told the
    order of its inputs. -/
inductive Reference.CalledAs (ref : Reference) : Callable → Prop where
  | task {remote : RemoteInterface} : ref.kind = .task → ref.interface = some remote →
      CalledAs ref
        { name := ref.key
          kind := .taskReference
          interface := remote.interface
          convention := if remote.inputOrder = none then .keyword else .positionalOrKeyword }
  | launchPlan {remote : RemoteInterface} : ref.kind = .launchPlan → ref.interface = some remote →
      CalledAs ref
        { name := ref.key
          kind := .launchPlanReference
          interface := remote.interface
          convention := .keyword }

theorem RegisteredTask.calledAs_iff {t : RegisteredTask} {c : Callable} :
    t.CalledAs c ↔ Registry.callableOfTask t = c :=
  eq_comm

theorem Reference.calledAs_iff {ref : Reference} {c : Callable} :
    ref.CalledAs c ↔ Registry.callableOfReference? ref = some c := by
  obtain ⟨id, kind, interface⟩ := ref
  constructor
  · intro h
    cases h with
    | @task remote hkind hinterface =>
      obtain rfl : kind = .task := hkind
      obtain rfl : interface = some remote := hinterface
      cases horder : remote.inputOrder with
      | none => simp [Registry.callableOfReference?, horder]
      | some order => simp [Registry.callableOfReference?, horder]
    | @launchPlan remote hkind hinterface =>
      obtain rfl : kind = .launchPlan := hkind
      obtain rfl : interface = some remote := hinterface
      rfl
  · intro h
    obtain ⟨⟨remote, order⟩, hinterface, rfl⟩ := Option.map_eq_some_iff.1 h
    obtain rfl : interface = some ⟨remote, order⟩ := hinterface
    cases kind with
    | task =>
      cases order with
      | none => exact .task rfl rfl
      | some names => exact .task rfl rfl
    | launchPlan => exact .launchPlan rfl rfl

namespace Callables

theorem put_of_notMem {c : Callable} {cs : List Callable} (h : c.name ∉ cs.map Callable.name) :
    put c cs = cs ++ [c] := by
  induction cs with
  | nil => rfl
  | cons d ds ih =>
    obtain ⟨hne, hrest⟩ := not_or.1 (mt List.mem_cons.2 h)
    rw [put, if_neg (Ne.symm hne), ih hrest]
    rfl

/-- Callables of different names replace none of each other. -/
theorem entries_foldl_insert (cs : Callables) {made : List Callable}
    (h : ((cs.entries ++ made).map Callable.name).Nodup) :
    (made.foldl insert cs).entries = cs.entries ++ made := by
  induction made generalizing cs with
  | nil => exact (List.append_nil _).symm
  | cons c made ih =>
    have hnew : c.name ∉ cs.entries.map Callable.name := by
      rw [List.map_append, List.map_cons] at h
      obtain ⟨-, -, hdisjoint⟩ := List.nodup_append.1 h
      exact fun hmem => hdisjoint _ hmem _ List.mem_cons_self rfl
    have hentries : (cs.insert c).entries = cs.entries ++ [c] := put_of_notMem hnew
    have happend : (cs.insert c).entries ++ made = cs.entries ++ c :: made := by
      rw [hentries, List.append_assoc]
      rfl
    rw [List.foldl_cons, ih (cs.insert c) (happend ▸ h), happend]

end Callables

namespace Registry

/-- Does an operation on a registry that is kept from one operation to the next. -/
def perform : Operation → Routine Registry Unit
  | .register task body => do
    let registry ← get
    let after ← Routine.ofExcept (registry.register task body)
    set after
  | .declare reference => do
    let registry ← get
    let (_, after) ← Routine.ofAction (registry.declare reference)
    set after
  | .fillIn key interface => do
    let registry ← get
    let after ← Routine.ofExcept (registry.fillIn key interface)
    set after

/-- The registry after operations done one after the other, whether or not they succeed. -/
def after (r : Registry) : List Operation → Registry
  | [] => r
  | op :: ops => ((perform op).runFrom r).value.2.after ops

/-- The operations that succeed among those done one after the other. -/
def accepted (r : Registry) : List Operation → List Operation
  | [] => []
  | op :: ops =>
    let (outcome, next) := ((perform op).runFrom r).value
    match outcome with
    | .ok () => op :: next.accepted ops
    | .error _ => next.accepted ops

/-- Whether an operation on a registry leads to another one. -/
def Yields (r after : Registry) : Operation → Prop
  | .register task body => r.register task body = .ok after
  | .declare reference => ∃ key, (r.declare reference).run.value = .ok (key, after)
  | .fillIn key interface => r.fillIn key interface = .ok after

/-- An operation either fails and changes nothing, or succeeds with what it yields. -/
theorem perform_cases (r : Registry) (op : Operation) :
    (∃ e, ((perform op).runFrom r).value = (.error e, r)) ∨
      ∃ after, ((perform op).runFrom r).value = (.ok (), after) ∧ r.Yields after op := by
  cases op with
  | register task body =>
    rw [perform, Routine.runFrom_bind, Routine.runFrom_get, pure_bind]
    dsimp only
    rw [Routine.runFrom_bind, Routine.runFrom_ofExcept, pure_bind]
    cases h : r.register task body with
    | error e => exact .inl ⟨e, rfl⟩
    | ok after => exact .inr ⟨after, rfl, h⟩
  | declare reference =>
    rw [perform, Routine.runFrom_bind, Routine.runFrom_get, pure_bind]
    dsimp only
    rw [Routine.runFrom_bind, Logged.value_bind, Routine.runFrom_ofAction, Logged.value_map]
    cases h : (r.declare reference).run.value with
    | error e => exact .inl ⟨e, rfl⟩
    | ok declared => exact .inr ⟨declared.2, rfl, declared.1, h⟩
  | fillIn key interface =>
    rw [perform, Routine.runFrom_bind, Routine.runFrom_get, pure_bind]
    dsimp only
    rw [Routine.runFrom_bind, Routine.runFrom_ofExcept, pure_bind]
    cases h : r.fillIn key interface with
    | error e => exact .inl ⟨e, rfl⟩
    | ok after => exact .inr ⟨after, rfl, h⟩

/-- A reference that is declared again, as the same kind, leaves everything as it is. -/
theorem declare_again {r : Registry} {ref existing : Reference} (htask : r.task? ref.key = none)
    (hexisting : r.reference? ref.key = some existing) (hkind : existing.kind = ref.kind) :
    (r.declare ref).run.value = .ok (ref.key, r) := by
  unfold declare
  dsimp only
  rw [htask, hexisting]
  dsimp only
  rw [if_neg (not_not_intro hkind)]
  rfl

variable {r between later : Registry} {made : List Operation}

theorem Yields.nodeNames_nodup {op : Operation} (hnodup : r.nodeNames.Nodup)
    (h : r.Yields later op) : later.nodeNames.Nodup := by
  cases op with
  | register task body => exact nodeNames_nodup_register hnodup h
  | declare reference =>
    obtain ⟨_, hdeclare⟩ := h
    exact nodeNames_nodup_declare hnodup hdeclare
  | fillIn key interface => exact (alike_of_fillIn h).nodeNames_eq ▸ hnodup

/-- A registry at a later time: every entry is where it was, and new ones come at the end. -/
structure Grows (r later : Registry) : Prop where
  tasks_prefix : r.tasks <+: later.tasks
  references_later : ∀ (i : Nat) (ref : Reference), r.references[i]? = some ref →
    ∃ now, later.references[i]? = some now ∧ ref.Later now

theorem Grows.refl (r : Registry) : r.Grows r where
  tasks_prefix := List.prefix_refl _
  references_later _ ref h := ⟨ref, h, rfl, fun _ => rfl⟩

theorem Grows.trans (hfirst : r.Grows between) (hsecond : between.Grows later) :
    r.Grows later where
  tasks_prefix := hfirst.tasks_prefix.trans hsecond.tasks_prefix
  references_later i ref h := by
    obtain ⟨then', hthen, hentry, hkept⟩ := hfirst.references_later i ref h
    obtain ⟨now, hnow, hentry', hkept'⟩ := hsecond.references_later i then' hthen
    refine ⟨now, hnow, hentry'.trans hentry, fun hresolved => ?_⟩
    obtain rfl := hkept hresolved
    exact hkept' hresolved

/-- Filling in an interface writes to references that have none. -/
theorem grows_of_fillIn {key : String} {remote : RemoteInterface}
    (h : r.fillIn key remote = .ok later) : r.Grows later := by
  rw [fillIn, bind_eq_ok_iff] at h
  obtain ⟨references, hmapM, h⟩ := h
  obtain rfl := Except.ok.inj h
  refine ⟨List.prefix_refl _, fun i ref href => ?_⟩
  obtain ⟨now, hnow, hfilled⟩ := getElem?_of_mapM_eq_ok hmapM href
  refine ⟨now, hnow, ?_⟩
  split at hfilled
  · refine ⟨entry_of_fillIn hfilled, fun hresolved => ?_⟩
    rw [Reference.fillIn, if_pos hresolved] at hfilled
    cases hfilled
  · obtain rfl := Except.ok.inj hfilled
    exact ⟨rfl, fun _ => rfl⟩

theorem Yields.grows {op : Operation} (h : r.Yields later op) : r.Grows later := by
  cases op with
  | register task body =>
    obtain ⟨-, rfl⟩ := register_eq_ok h
    exact ⟨List.prefix_append _ _, (Grows.refl r).references_later⟩
  | declare reference =>
    obtain ⟨_, hdeclare⟩ := h
    obtain ⟨-, -, ⟨-, -, -, rfl⟩ | ⟨-, rfl⟩⟩ := declare_eq_ok hdeclare
    · exact .refl later
    · refine ⟨List.prefix_refl _, fun i ref href => ⟨ref, ?_, rfl, fun _ => rfl⟩⟩
      obtain ⟨hlt, -⟩ := List.getElem?_eq_some_iff.1 href
      rw [List.getElem?_append_left hlt]
      exact href
  | fillIn key interface => exact grows_of_fillIn h

theorem grows_after (r : Registry) (ops : List Operation) : r.Grows (r.after ops) := by
  induction ops generalizing r with
  | nil => exact .refl r
  | cons op ops ih =>
    rw [Registry.after]
    obtain ⟨e, h⟩ | ⟨between, h, hyields⟩ := r.perform_cases op
    · rw [h]
      exact ih r
    · rw [h]
      exact hyields.grows.trans (ih between)

/-- A registry that holds what the successful operations brought: every task, and under each key of
    a reference, in the order in which the keys came up, what it was first declared as. -/
structure Accounts (r : Registry) (made : List Operation) : Prop where
  tasks_eq : r.tasks = made.filterMap Operation.task?
  keys_eq : r.references.map Reference.key =
    ((made.filterMap Operation.reference?).map Reference.key).eraseDups
  first_eq : ∀ key, (r.reference? key).map Reference.entry =
    ((made.filterMap Operation.reference?).find? (·.key == key)).map Reference.entry

theorem accounts_empty : empty.Accounts [] where
  tasks_eq := rfl
  keys_eq := rfl
  first_eq _ := rfl

theorem Accounts.mem_keys_iff (h : r.Accounts made) {key : String} :
    key ∈ (made.filterMap Operation.reference?).map Reference.key ↔
      (r.reference? key).isSome := by
  rw [← List.mem_eraseDups, ← h.keys_eq]
  unfold reference?
  simp

/-- What the first of some references under a key was declared as, when one more is declared. -/
theorem map_find?_concat (declared : List Reference) (ref : Reference) (key : String) :
    ((declared ++ [ref]).find? (·.key == key)).map Reference.entry =
      ((declared.find? (·.key == key)).map Reference.entry).or
        (if ref.key = key then some ref.entry else none) := by
  rw [List.find?_append, Option.map_or, List.find?_singleton]
  by_cases h : ref.key = key
  · simp [h]
  · simp [h]

theorem Accounts.declare (h : r.Accounts made) {ref : Reference}
    (hyields : r.Yields later (.declare ref)) : later.Accounts (made ++ [.declare ref]) := by
  obtain ⟨_, hdeclare⟩ := hyields
  have hreferences : (made ++ [Operation.declare ref]).filterMap Operation.reference? =
      made.filterMap Operation.reference? ++ [ref] :=
    List.filterMap_append
  have htasks : (made ++ [Operation.declare ref]).filterMap Operation.task? = r.tasks := by
    rw [List.filterMap_append, ← h.tasks_eq]
    exact List.append_nil _
  obtain ⟨-, -, ⟨existing, hexisting, -, rfl⟩ | ⟨hnew, rfl⟩⟩ := declare_eq_ok hdeclare
  · have hmem : ref.key ∈ (made.filterMap Operation.reference?).map Reference.key :=
      h.mem_keys_iff.2 (by rw [hexisting]; rfl)
    refine ⟨htasks.symm, ?_, fun key => ?_⟩
    · rw [hreferences, h.keys_eq, List.map_append, List.eraseDups_append]
      simp [List.removeAll, hmem]
    · rw [hreferences, map_find?_concat, ← h.first_eq]
      by_cases hkey : ref.key = key
      · subst hkey
        rw [hexisting]
        rfl
      · rw [if_neg hkey, Option.or_none]
  · have hnotMem : ref.key ∉ (made.filterMap Operation.reference?).map Reference.key := by
      rw [h.mem_keys_iff, hnew]
      exact Bool.false_ne_true
    refine ⟨htasks.symm, ?_, fun key => ?_⟩
    · rw [hreferences, List.map_append, List.map_append, List.eraseDups_append, h.keys_eq]
      simp [List.removeAll, hnotMem, List.eraseDups_cons]
    · rw [hreferences, map_find?_concat, ← h.first_eq, reference?_concat, Option.map_or]
      split
      · rfl
      · rfl

/-- What a registry accounts for grows by each operation that succeeds. -/
theorem Accounts.concat (h : r.Accounts made) {op : Operation} (hyields : r.Yields later op) :
    later.Accounts (made ++ [op]) := by
  cases op with
  | register task body =>
    have hreferences : (made ++ [Operation.register task body]).filterMap Operation.reference? =
        made.filterMap Operation.reference? := by
      rw [List.filterMap_append]
      exact List.append_nil _
    obtain ⟨-, rfl⟩ := register_eq_ok hyields
    refine ⟨?_, hreferences ▸ h.keys_eq, hreferences ▸ h.first_eq⟩
    rw [List.filterMap_append, ← h.tasks_eq]
    rfl
  | declare ref => exact h.declare hyields
  | fillIn key remote =>
    have hreferences : (made ++ [Operation.fillIn key remote]).filterMap Operation.reference? =
        made.filterMap Operation.reference? := by
      rw [List.filterMap_append]
      exact List.append_nil _
    have halike := alike_of_fillIn hyields
    refine ⟨?_, ?_, fun name => ?_⟩
    · rw [List.filterMap_append, halike.tasks_eq, h.tasks_eq]
      exact (List.append_nil _).symm
    · rw [hreferences, halike.keys_eq, h.keys_eq]
    · rw [hreferences, halike.map_reference?_eq, h.first_eq]

theorem Accounts.after (h : r.Accounts made) (ops : List Operation) :
    (r.after ops).Accounts (made ++ r.accepted ops) := by
  induction ops generalizing r made with
  | nil =>
    rw [accepted, List.append_nil]
    exact h
  | cons op ops ih =>
    rw [Registry.after, accepted]
    obtain ⟨e, hfail⟩ | ⟨later, hdone, hyields⟩ := r.perform_cases op
    · rw [hfail]
      exact ih h
    · rw [hdone]
      have hrest := ih (h.concat hyields)
      rw [List.append_assoc] at hrest
      exact hrest

theorem nodeNames_nodup_after (hnodup : r.nodeNames.Nodup) (ops : List Operation) :
    (r.after ops).nodeNames.Nodup := by
  induction ops generalizing r with
  | nil => exact hnodup
  | cons op ops ih =>
    rw [Registry.after]
    obtain ⟨e, hfail⟩ | ⟨later, hdone, hyields⟩ := r.perform_cases op
    · rw [hfail]
      exact ih hnodup
    · rw [hdone]
      exact ih (hyields.nodeNames_nodup hnodup)

/-- A registry in which a name belongs to one entry, and in which all that looks for a name finds
    this entry. -/
structure Coherent (r : Registry) : Prop where
  nodeNames_nodup : r.nodeNames.Nodup
  task_found : ∀ t ∈ r.tasks, r.task? t.task.name = some t ∧ r.reference? t.task.name = none
  reference_found : ∀ ref ∈ r.references,
    r.task? ref.key = none ∧ r.reference? ref.key = some ref
  callables_eq : ∃ tasks references, r.callables.entries = tasks ++ references ∧
    List.Forall₂ RegisteredTask.CalledAs r.tasks tasks ∧
    List.Forall₂ Reference.CalledAs (r.references.filter (·.interface.isSome)) references
  callable_iff : ∀ name c, r.callables.get? name = some c ↔
    (∃ t ∈ r.tasks, t.task.name = name ∧ t.CalledAs c) ∨
      ∃ ref ∈ r.references, ref.key = name ∧ ref.CalledAs c
  target_iff : ∀ name, (r.target? name).isSome ↔ name ∈ r.nodeNames
  /-- What is called under a name is what the nodes of this name run. -/
  backed : ∀ name c, r.callables.get? name = some c → ∃ target, r.target? name = some target ∧
    Backed (r.tasks.map (·.task)) r.references name c.kind target

theorem name_of_callableOfReference? {ref : Reference} {c : Callable}
    (h : callableOfReference? ref = some c) : c.name = ref.key := by
  obtain ⟨remote, -, rfl⟩ := Option.map_eq_some_iff.1 h
  rfl

/-- The names of all that can be called are names of entries, in the same order. -/
theorem callableNames_sublist (r : Registry) :
    ((r.tasks.map callableOfTask ++ r.references.filterMap callableOfReference?).map
      Callable.name).Sublist r.nodeNames := by
  have hreferences : ∀ references : List Reference,
      ((references.filterMap callableOfReference?).map Callable.name).Sublist
        (references.map Reference.key) := by
    intro references
    induction references with
    | nil => exact .slnil
    | cons ref rest ih =>
      cases hcallable : callableOfReference? ref with
      | none =>
        rw [List.filterMap_cons_none hcallable]
        exact ih.cons _
      | some c =>
        rw [List.filterMap_cons_some hcallable, List.map_cons, List.map_cons,
          name_of_callableOfReference? hcallable]
        exact ih.cons_cons _
  rw [List.map_append, List.map_map]
  exact (hreferences r.references).append_left _

theorem callables_entries (hnodup : r.nodeNames.Nodup) : r.callables.entries =
    r.tasks.map callableOfTask ++ r.references.filterMap callableOfReference? :=
  Callables.entries_foldl_insert .empty (hnodup.sublist r.callableNames_sublist)

/-- The tasks and then the references whose interface is known, in their orders. -/
theorem forall₂_calledAs (r : Registry) :
    List.Forall₂ RegisteredTask.CalledAs r.tasks (r.tasks.map callableOfTask) ∧
      List.Forall₂ Reference.CalledAs (r.references.filter (·.interface.isSome))
        (r.references.filterMap callableOfReference?) := by
  have hknown : r.references.filterMap callableOfReference? =
      (r.references.filter (·.interface.isSome)).filterMap callableOfReference? := by
    rw [List.filterMap_filter]
    refine List.filterMap_congr fun ref _ => ?_
    unfold callableOfReference?
    cases ref.interface with
    | none => rfl
    | some remote => rfl
  constructor
  · rw [List.forall₂_map_right_iff, List.forall₂_same]
    exact fun t _ => RegisteredTask.calledAs_iff.2 rfl
  · have hsome : ∀ ref ∈ r.references.filter (·.interface.isSome),
        (callableOfReference? ref).isSome := by
      intro ref href
      rw [callableOfReference?, Option.isSome_map]
      exact (List.mem_filter.1 href).2
    rw [hknown]
    exact (forall₂_filterMap hsome).imp fun _ _ => Reference.calledAs_iff.2

theorem isSome_target?_iff {name : String} : (r.target? name).isSome ↔ name ∈ r.nodeNames := by
  rw [target?_eq, Option.isSome_map, Option.isSome_iff_ne_none, ne_eq, held?_eq_none_iff_notMem,
    Decidable.not_not]

theorem coherent_of_nodup (hnodup : r.nodeNames.Nodup) : r.Coherent where
  nodeNames_nodup := hnodup
  task_found t ht := by
    refine ⟨task?_of_mem hnodup ht, ?_⟩
    obtain ⟨-, -, hdisjoint⟩ := List.nodup_append.1 hnodup
    unfold reference?
    rw [List.find?_eq_none]
    intro ref href
    have hne := hdisjoint _ (List.mem_map_of_mem ht) _ (List.mem_map_of_mem href)
    simpa using Ne.symm hne
  reference_found _ href := reference?_of_mem hnodup href
  callables_eq := ⟨_, _, callables_entries hnodup, r.forall₂_calledAs⟩
  callable_iff name c := by
    have hentries : (r.callables.entries.map Callable.name).Nodup := by
      rw [callables_entries hnodup]
      exact hnodup.sublist r.callableNames_sublist
    have hget : r.callables.get? name = some c ↔ c ∈ r.callables.entries ∧ c.name = name := by
      constructor
      · intro h
        exact ⟨List.mem_of_find?_eq_some h, Callables.name_of_get? h⟩
      · rintro ⟨hmem, rfl⟩
        exact find?_of_mem hentries hmem
    simp only [RegisteredTask.calledAs_iff, Reference.calledAs_iff]
    rw [hget, callables_entries hnodup, List.mem_append, List.mem_map, List.mem_filterMap,
      or_and_right]
    refine or_congr ?_ ?_
    · constructor
      · rintro ⟨⟨t, ht, rfl⟩, hname⟩
        exact ⟨t, ht, hname, rfl⟩
      · rintro ⟨t, ht, hname, rfl⟩
        exact ⟨⟨t, ht, rfl⟩, hname⟩
    · constructor
      · rintro ⟨⟨ref, href, hcallable⟩, hname⟩
        exact ⟨ref, href, name_of_callableOfReference? hcallable ▸ hname, hcallable⟩
      · rintro ⟨ref, href, hname, hcallable⟩
        exact ⟨⟨ref, href, hcallable⟩, (name_of_callableOfReference? hcallable).trans hname⟩
  target_iff _ := isSome_target?_iff
  backed _ _ h := target?_of_callable hnodup h

/-- A registry that only changes when something new comes to it. -/
structure Steadfast (r : Registry) : Prop where
  of_error : ∀ op e later, ((perform op).runFrom r).value = (.error e, later) → later = r
  again : ∀ ref existing, r.reference? ref.key = some existing → existing.kind = ref.kind →
    (r.declare ref).run.value = .ok (ref.key, r)

theorem steadfast_of_coherent (h : r.Coherent) : r.Steadfast where
  of_error op e later hfail := by
    obtain ⟨_, hsame⟩ | ⟨_, hdone, -⟩ := r.perform_cases op
    · rw [hsame] at hfail
      exact (Prod.mk.inj hfail).2.symm
    · rw [hdone] at hfail
      cases (Prod.mk.inj hfail).1
  again ref existing hexisting hkind := by
    have hkey : existing.key = ref.key := by simpa using List.find?_some hexisting
    have hfound := h.reference_found existing (List.mem_of_find?_eq_some hexisting)
    exact declare_again (hkey ▸ hfound.1) hexisting hkind

/-- After any operations, in any order and whichever of them fail, a registry holds exactly what the
    successful ones brought, each entry under a name of its own, and in both of its views. What
    it holds stays through any further operations. -/
theorem coherent_after (ops : List Operation) :
    let r := empty.after ops
    r.Accounts (empty.accepted ops) ∧ r.Coherent ∧ r.Steadfast ∧
      ∀ more, r.Grows (r.after more) := by
  intro r
  have hempty : empty.nodeNames.Nodup := .nil
  have hcoherent : r.Coherent := coherent_of_nodup (nodeNames_nodup_after hempty ops)
  exact ⟨accounts_empty.after ops, hcoherent, steadfast_of_coherent hcoherent, r.grows_after⟩

/-- A reference that is declared again once its interface is known keeps it, and its key is not that
    of a launch plan too. -/
example :
    let ref : Reference := ⟨⟨.task, "p", "d", "n", "v"⟩, .task, none⟩
    let remote : RemoteInterface := ⟨⟨[], ⟨"o0", .typed .integer⟩⟩, none⟩
    let twin : Reference := ⟨⟨.launchPlan, "p", "d", "n", "v"⟩, .launchPlan, none⟩
    (empty.after [.declare ref, .fillIn ref.key remote, .declare ref, .declare twin]).references =
      [{ ref with interface := some remote }] := by
  decide +kernel

end Registry

end TaskGraph
