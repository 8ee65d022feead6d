import TaskGraph.Proofs.Graph.Closure
import TaskGraph.Proofs.Registry.Resolution
import TaskGraph.Proofs.Text.Reading

namespace TaskGraph

variable {σ ω : Type}

/-- An identity that can be read off its joined form. The version may hold dashes. -/
structure Identifier.DashFree (id : Identifier) : Prop where
  project : '-' ∉ id.project.toList
  domain : '-' ∉ id.domain.toList
  name : '-' ∉ id.name.toList

theorem Identifier.DashFree.join_inj {id id' : Identifier} (h : id.DashFree) (h' : id'.DashFree)
    (hjoin : Text.join "-" [id.project, id.domain, id.name, id.version] =
      Text.join "-" [id'.project, id'.domain, id'.name, id'.version]) :
    id.project = id'.project ∧ id.domain = id'.domain ∧ id.name = id'.name ∧
      id.version = id'.version := by
  obtain ⟨hproject, hjoin⟩ := Text.join_cons_cons_inj h.project h'.project hjoin
  obtain ⟨hdomain, hjoin⟩ := Text.join_cons_cons_inj h.domain h'.domain hjoin
  obtain ⟨hname, hjoin⟩ := Text.join_cons_cons_inj h.name h'.name hjoin
  refine ⟨hproject, hdomain, hname, ?_⟩
  simpa [Text.join] using hjoin

namespace Compilation

/-- The issues of declarations under settings, and the compilation that they lead to. -/
def declared (settings : Settings) (ds : List (Declaration σ)) : List Issue × Compilation σ :=
  declareAll ⟨settings, .empty, []⟩ ds

/-- The compilation after its references were filled in from a server. -/
def resolved (c : Compilation σ) (server : Server ω) (link : Link ω) (notes : σ) :
    Compilation σ :=
  ((Session.resolveReferences server).runFrom ⟨c, link, notes⟩).value.2.compilation

/-- Whether a handle leads to what it was declared for: in the registry, and in every node that
    was captured through it. -/
structure Honours (c : Compilation σ) (i : Issue) : Prop where
  holds : c.registry.Holds i.handle i.entry
  target_eq : c.registry.target? i.handle = some i.entry.target
  nodes : ∀ notes notes' bundle, (c.compile.runFrom notes).value = (.ok bundle, notes') →
    ∀ g ∈ bundle.workflows, ∀ n ∈ g.nodes, n.name = i.handle → n.target = i.entry.target

variable {c : Compilation σ} {issues : List Issue}

theorem honours_iff (hrecords : c.registry.Records issues) (i : Issue) :
    c.Honours i ↔ firstIssued? issues i.handle = some i.entry := by
  have hholds :
      c.registry.Holds i.handle i.entry ↔ firstIssued? issues i.handle = some i.entry := by
    rw [Registry.holds_iff hrecords.disjoint, hrecords.held_eq]
  constructor
  · intro h
    exact hholds.1 h.holds
  · intro hfirst
    have htarget : c.registry.target? i.handle = some i.entry.target := by
      rw [Registry.target?_eq, hrecords.held_eq, hfirst]
      rfl
    refine ⟨hholds.2 hfirst, htarget, ?_⟩
    intro notes notes' bundle hcompile g hg n hn hname
    have hnode := target?_of_compile hcompile hg hn
    rw [hname, htarget] at hnode
    exact (Option.some.inj hnode).symm

theorem records_declared (settings : Settings) (ds : List (Declaration σ)) :
    (declared settings ds).2.registry.Records (declared settings ds).1 :=
  declareAll_records (c := ⟨settings, .empty, []⟩) Registry.records_empty ds

theorem records_resolved (hrecords : c.registry.Records issues) (server : Server ω)
    (link : Link ω) (notes : σ) : (c.resolved server link notes).registry.Records issues :=
  (Session.alike_resolveReferences server ⟨c, link, notes⟩).records hrecords

/-- When handles tell their entries apart, each of them leads to its own. -/
theorem firstIssued?_eq_iff :
    (∀ i ∈ issues, firstIssued? issues i.handle = some i.entry) ↔
      ∀ i ∈ issues, ∀ j ∈ issues, i.handle = j.handle → i.entry = j.entry := by
  constructor
  · intro hfirst i hi j hj hhandle
    have hfirsti := hfirst i hi
    rw [hhandle, hfirst j hj] at hfirsti
    exact (Option.some.inj hfirsti).symm
  · intro hinj i hi
    obtain ⟨j, hj, hhandle, hfirst⟩ := exists_firstIssued? hi
    rw [hfirst, hinj j hj i hi hhandle]

theorem handle_inj_iff (hrecords : c.registry.Records issues) :
    (∀ i ∈ issues, ∀ j ∈ issues, i.handle = j.handle → i.entry = j.entry) ↔
      ∀ i ∈ issues, ∀ j ∈ issues, i.entry.nodeName = j.entry.nodeName → i.entry = j.entry := by
  constructor
  · intro h i hi j hj hname
    apply h i hi j hj
    rw [hrecords.handle_eq i hi, hrecords.handle_eq j hj, hname]
  · intro h i hi j hj hhandle
    apply h i hi j hj
    rw [← hrecords.handle_eq i hi, ← hrecords.handle_eq j hj, hhandle]

/-- References whose first three parts hold no dash tell each other apart. -/
theorem firstIssued?_of_dashFree (hrecords : c.registry.Records issues)
    (hfree : ∀ i ∈ issues, ∀ kind id, i.entry = .reference kind id → id.DashFree) :
    ∀ i ∈ issues, firstIssued? issues i.handle = some i.entry := by
  intro i hi
  obtain ⟨j, hj, hhandle, hfirst⟩ := exists_firstIssued? hi
  rcases hrecords.shared i hi j.entry hfirst with heq | ⟨kind, id, id', hjref, hiref⟩
  · rw [hfirst, heq]
  · have hname : j.entry.nodeName = i.entry.nodeName := by
      rw [← hrecords.handle_eq j hj, ← hrecords.handle_eq i hi, hhandle]
    rw [hjref, hiref] at hname
    obtain ⟨hproject, hdomain, hname, hversion⟩ :=
      (hfree j hj kind id hjref).join_inj (hfree i hi kind id' hiref) hname
    have htype : id.resourceType = id'.resourceType := by
      rw [hrecords.typed j hj kind id hjref, hrecords.typed i hi kind id' hiref]
    have hid : id = id' := by
      obtain ⟨resourceType, project, domain, name, version⟩ := id
      cases htype
      cases hproject
      cases hdomain
      cases hname
      cases hversion
      rfl
    rw [hfirst, hjref, hiref, hid]

/-- Declarations of references without dashes in project, domain and name, in any order and mixed
    with any other declarations, return handles that lead to what was declared. -/
theorem honours_of_dashFree (settings : Settings) (ds : List (Declaration σ)) (server : Server ω)
    (link : Link ω) (notes : σ)
    (hfree : ∀ i ∈ (declared settings ds).1, ∀ kind id,
      i.entry = .reference kind id → id.DashFree) :
    ∀ i ∈ (declared settings ds).1,
      ((declared settings ds).2.resolved server link notes).Honours i := by
  have hdeclared := records_declared settings ds
  intro i hi
  rw [honours_iff (records_resolved hdeclared server link notes)]
  exact firstIssued?_of_dashFree hdeclared hfree i hi

/-- After any declarations, and however the references are filled in, the registry holds under
    every name what was first declared under it. So a handle is honoured exactly when it was first
    returned for the same entry, as the handle of a task always is; and all handles are, exactly
    when no two entries share a node name. -/
theorem honours_iff_first (settings : Settings) (ds : List (Declaration σ)) (server : Server ω)
    (link : Link ω) (notes : σ) :
    let issues := (declared settings ds).1
    let c := (declared settings ds).2.resolved server link notes
    (∀ name, c.registry.held? name = firstIssued? issues name) ∧
      (∀ i ∈ issues, c.Honours i ↔ firstIssued? issues i.handle = some i.entry) ∧
      (∀ i ∈ issues, ∀ id, i.entry = .task id → c.Honours i) ∧
      ((∀ i ∈ issues, c.Honours i) ↔ ∀ i ∈ issues, ∀ j ∈ issues,
        i.entry.nodeName = j.entry.nodeName → i.entry = j.entry) := by
  intro issues c
  have hdeclared : (declared settings ds).2.registry.Records issues := records_declared settings ds
  have hrecords : c.registry.Records issues := records_resolved hdeclared server link notes
  have hhonours : ∀ i, c.Honours i ↔ firstIssued? issues i.handle = some i.entry :=
    honours_iff hrecords
  refine ⟨hrecords.held_eq, fun i _ => hhonours i, ?_, ?_⟩
  · intro i hi id hid
    obtain ⟨j, -, -, hfirst⟩ := exists_firstIssued? hi
    rcases hrecords.shared i hi j.entry hfirst with heq | ⟨_, _, _, -, href⟩
    · exact (hhonours i).2 (heq ▸ hfirst)
    · rw [hid] at href
      cases href
  · rw [← handle_inj_iff hrecords, ← firstIssued?_eq_iff]
    constructor
    · intro h i hi
      exact (hhonours i).1 (h i hi)
    · intro h i hi
      exact (hhonours i).2 (h i hi)

/-- Two references whose parts join to one text. -/
def twins : List (Declaration Unit) :=
  [.reference .task "a-b" "c" "d" "v", .reference .task "a" "b-c" "d" "v"]

/-- A server on which every task is a task with one text output. -/
def uniformServer : Server Unit where
  fetch _ notes :=
    let output := .obj [("type", .obj [("simple", .str "STRING")])]
    let outputs := .obj [("variables", .obj [("y", output)])]
    let template := .obj [("interface", .obj [("outputs", outputs)])]
    let closure := .obj [("compiled_task", .obj [("template", template)])]
    (⟨0, .ok ⟨200, .obj [("closure", closure)]⟩⟩, notes)
  submit _ _ notes := (⟨0, .ok ⟨200, .null⟩⟩, notes)

/-- The second handle was returned, and the references were filled in, but it leads to the first. -/
theorem twins_not_honoured :
    let settings : Settings := ⟨"localhost", ⟨"p", "d", "v"⟩, {}⟩
    let c := (declared settings twins).2
    let second : Issue := ⟨.reference .task ⟨.task, "a", "b-c", "d", "v"⟩, "a-b-c-d-v"⟩
    let outcome := ((Session.resolveReferences uniformServer).runFrom ⟨c, ⟨(), []⟩, ()⟩).value.1
    outcome.toOption = some 1 ∧ second ∈ (declared settings twins).1 ∧
      ¬(c.resolved uniformServer ⟨(), []⟩ ()).Honours second := by
  refine ⟨?_, ?_, ?_⟩
  · decide +kernel
  · exact List.mem_cons_of_mem _ List.mem_cons_self
  · intro h
    have hdeclared := records_declared ⟨"localhost", ⟨"p", "d", "v"⟩, {}⟩ twins
    have hrecords := records_resolved hdeclared uniformServer ⟨(), []⟩ ()
    have hfirst := (honours_iff hrecords _).1 h
    exact absurd hfirst (by decide)

end Compilation

end TaskGraph
