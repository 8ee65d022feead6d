import Mathlib.Data.List.Perm.Subperm
import TaskGraph.Proofs.Json.Structure
import TaskGraph.Proofs.Trace.Arguments
import TaskGraph.Registry.Basic

namespace TaskGraph

open Json (Value)

namespace RemoteInterface

/-- The variables that a template declares as inputs, when it has an object of them. -/
def variables? (template : Value) : Option (List (String × Value)) :=
  (template.at? ["interface", "inputs", "variables"]).bind Value.obj?

/-- The names of the inputs that a template declares. -/
def declaredInputs (template : Value) : List String :=
  ((variables? template).getD []).map (·.1)

variable {template : Value} {remote : RemoteInterface}

theorem declaredInputs_none (h : variables? template = none) :
    declaredInputs template = [] := by
  rw [declaredInputs, h, Option.getD_none, List.map_nil]

theorem declaredInputs_some {fields : List (String × Value)}
    (h : variables? template = some fields) : declaredInputs template = fields.map (·.1) := by
  rw [declaredInputs, h, Option.getD_some]

/-- Whether an interface has the declared inputs, each of them once, in the order that it keeps. -/
structure Faithful (remote : RemoteInterface) (declared : List String) : Prop where
  nodup : remote.interface.inputNames.Nodup
  mem_iff : ∀ name, name ∈ remote.interface.inputNames ↔ name ∈ declared
  order_eq : ∀ order, remote.inputOrder = some order → remote.interface.inputNames = order

theorem names_of_namedInputs {config : Option Value} {fields : List (String × Value)}
    {names : List String} {vs : List Variable} (h : namedInputs config fields names = .ok vs) :
    vs.map (·.name) = names ∧ ∀ name ∈ names, name ∈ fields.map (·.1) := by
  induction names generalizing vs with
  | nil =>
    obtain rfl := Except.ok.inj h
    exact ⟨rfl, List.forall_mem_nil _⟩
  | cons name names ih =>
    unfold namedInputs at h
    split at h
    · next declared hlookup =>
      rw [bind_eq_ok_iff] at h
      obtain ⟨rest, hrest, h⟩ := h
      obtain rfl := Except.ok.inj h
      obtain ⟨hnames, hdeclared⟩ := ih hrest
      obtain ⟨before, after, hfields, -⟩ := List.lookup_eq_some_iff.1 hlookup
      refine ⟨congrArg (name :: ·) hnames, List.forall_mem_cons.2 ⟨?_, hdeclared⟩⟩
      rw [hfields, List.map_append]
      exact List.mem_append_right _ List.mem_cons_self
    · cases h

/-- The inputs of a template that was read: none where it declares none, else as many as it
    declares, under the names that are listed or else under all of them. -/
theorem inputNames_cases (h : ofTaskTemplate template = .ok remote) :
    (variables? template = none ∧ remote.interface.inputNames = []) ∨
      ∃ fields, variables? template = some fields ∧
        remote.interface.inputNames = remote.inputOrder.getD (fields.map (·.1)) ∧
        remote.interface.inputNames.length = fields.length ∧
        remote.interface.inputNames ⊆ fields.map (·.1) := by
  rw [ofTaskTemplate, bind_eq_ok_iff] at h
  obtain ⟨inputs, hinputs, h⟩ := h
  rw [bind_eq_ok_iff] at h
  obtain ⟨output, -, h⟩ := h
  obtain rfl := Except.ok.inj h
  have hread : templateInputs _ _ (variables? template) = .ok inputs := hinputs
  cases hvariables : variables? template with
  | none =>
    rw [hvariables] at hread
    obtain rfl := Except.ok.inj hread
    exact .inl ⟨rfl, rfl⟩
  | some fields =>
    rw [hvariables, templateInputs] at hread
    split at hread
    · next hlength =>
      obtain ⟨hnames, hdeclared⟩ := names_of_namedInputs hread
      refine .inr ⟨fields, rfl, hnames, ?_, ?_⟩
      · rw [← hlength, ← hnames]
        rfl
      · rw [Interface.inputNames, hnames]
        exact hdeclared
    · cases hread

/-- Where all names are declared and as many, no name is repeated exactly when none is missing. -/
theorem nodup_iff_covers {names declared : List String} (hdeclared : declared.Nodup)
    (hsub : names ⊆ declared) (hlength : names.length = declared.length) :
    names.Nodup ↔ ∀ name ∈ declared, name ∈ names := by
  constructor
  · intro hnames name hname
    have hperm : names.Perm declared :=
      (hnames.subperm hsub).perm_of_length_le (Nat.le_of_eq hlength.symm)
    exact hperm.mem_iff.2 hname
  · intro hcovers
    have hperm : declared.Perm names :=
      (hdeclared.subperm hcovers).perm_of_length_le (Nat.le_of_eq hlength)
    exact hperm.nodup_iff.1 hdeclared

theorem declaredInputs_nodup (h : template.Canonical) :
    (declaredInputs template).Nodup := by
  unfold declaredInputs
  cases hvariables : variables? template with
  | none => exact .nil
  | some fields =>
    obtain ⟨v, hv, hobj⟩ := Option.bind_eq_some_iff.1 hvariables
    have hcanonical := h.of_at? hv
    cases v with
    | obj found =>
      obtain rfl := Option.some.inj hobj
      exact hcanonical.keys_nodup
    | _ => cases hobj

/-- An interface that was read has no input that the template does not declare, and it has each
    of them once exactly when none is missing. -/
theorem inputNames_nodup_iff (hcanonical : template.Canonical)
    (h : ofTaskTemplate template = .ok remote) :
    remote.interface.inputNames ⊆ declaredInputs template ∧
      (remote.interface.inputNames.Nodup ↔
        ∀ name ∈ declaredInputs template, name ∈ remote.interface.inputNames) := by
  have hdeclared := declaredInputs_nodup hcanonical
  rcases inputNames_cases h with ⟨hnone, hnames⟩ | ⟨fields, hfields, -, hlength, hsub⟩
  · rw [hnames, declaredInputs_none hnone]
    exact ⟨List.nil_subset _, nodup_iff_covers .nil (List.nil_subset _) rfl⟩
  · rw [declaredInputs_some hfields] at hdeclared ⊢
    exact ⟨hsub, nodup_iff_covers hdeclared hsub (hlength.trans (List.length_map _).symm)⟩

/-- What was read is faithful unless a list was kept that repeats a name, or that stands beside a
    template without variables. -/
theorem faithful_iff_listed (hcanonical : template.Canonical)
    (h : ofTaskTemplate template = .ok remote) :
    remote.Faithful (declaredInputs template) ↔ ∀ order, remote.inputOrder = some order →
      order.Nodup ∧ (variables? template = none → order = []) := by
  obtain ⟨hsub, hcovers⟩ := inputNames_nodup_iff hcanonical h
  constructor
  · rintro ⟨hnodup, -, horder⟩ order hsome
    obtain rfl := horder order hsome
    refine ⟨hnodup, fun hnone => ?_⟩
    rcases inputNames_cases h with ⟨-, hnames⟩ | ⟨fields, hfields, -⟩
    · exact hnames
    · cases hnone.symm.trans hfields
  · intro hlisted
    rcases inputNames_cases h with ⟨hnone, hnames⟩ | ⟨fields, hfields, hnames, -⟩
    · refine ⟨hnames ▸ .nil, fun name => by rw [hnames, declaredInputs_none hnone], ?_⟩
      intro order hsome
      rw [hnames, (hlisted order hsome).2 hnone]
    · have hnodup : remote.interface.inputNames.Nodup := by
        rw [hnames]
        cases horder : remote.inputOrder with
        | none =>
          have hdeclared := declaredInputs_nodup hcanonical
          rw [declaredInputs_some hfields] at hdeclared
          exact hdeclared
        | some order => exact (hlisted order horder).1
      refine ⟨hnodup, fun name => ⟨@hsub name, hcovers.1 hnodup name⟩, fun order hsome => ?_⟩
      rw [hnames, hsome]
      rfl

/-- A call binds all declared inputs exactly when no input name is repeated. -/
theorem binds_declared_iff (hcanonical : template.Canonical)
    (h : ofTaskTemplate template = .ok remote) {c : Callable} (hc : c.interface = remote.interface)
    {args : Arguments} {bound : List (String × Binding)} (hbound : c.bind args = .ok bound) :
    (∀ name ∈ declaredInputs template, name ∈ bound.map (·.1)) ↔
      remote.interface.inputNames.Nodup := by
  rw [(inputNames_nodup_iff hcanonical h).2]
  constructor
  · intro hbinds name hname
    rw [← hc]
    exact Callable.names_of_bind hbound name (hbinds name hname)
  · intro hcovers name hname
    have hnodup := (inputNames_nodup_iff hcanonical h).2.2 hcovers
    rw [← hc] at hnodup hcovers
    rw [Callable.names_eq_of_bind hnodup hbound]
    exact hcovers name hname

/-- The interface read from a template is faithful to what the template declares exactly when the
    configuration lists no input twice, and none where the template has no object of variables.
    What is read was declared in any case. A call to the task binds all declared inputs exactly when
    no name is repeated. -/
theorem faithful_iff (hcanonical : template.Canonical) (h : ofTaskTemplate template = .ok remote) :
    (remote.Faithful (declaredInputs template) ↔ ∀ order, remote.inputOrder = some order →
      order.Nodup ∧ (variables? template = none → order = [])) ∧
    remote.interface.inputNames ⊆ declaredInputs template ∧
    ∀ id, ∃ c, Registry.callableOfReference? ⟨id, .task, some remote⟩ = some c ∧
      ∀ args bound, c.bind args = .ok bound →
        ((∀ name ∈ declaredInputs template, name ∈ bound.map (·.1)) ↔
          remote.interface.inputNames.Nodup) :=
  ⟨faithful_iff_listed hcanonical h, (inputNames_nodup_iff hcanonical h).1,
    fun _ => ⟨_, rfl, fun _ _ hbound => binds_declared_iff hcanonical h rfl hbound⟩⟩

/-- A wire variable that holds an integer. -/
def integerVariable : Value := .obj [("type", .obj [("simple", .str "INTEGER")])]

/-- The template of a task with these inputs, listed in this order. -/
def listedTemplate (order : String) (inputs : List (String × Value)) : Value :=
  .obj [
    ("config", .obj [("inputOrder", .str order)]),
    ("interface", .obj [
      ("inputs", .obj inputs),
      ("outputs", .obj [("variables", .obj [("sum", integerVariable)])])])]

/-- A name that is listed twice stands in the place of an input, and a list beside a template
    without variables is kept although nothing was read. -/
theorem twice_listed_unfaithful :
    (∃ remote, ofTaskTemplate (listedTemplate "x,x"
        [("variables", .obj [("x", integerVariable), ("y", integerVariable)])]) = .ok remote ∧
      remote.interface.inputNames = ["x", "x"] ∧ ¬remote.Faithful ["x", "y"]) ∧
    ∃ remote, ofTaskTemplate (listedTemplate "x,y" []) = .ok remote ∧
      remote.interface.inputNames = [] ∧ ¬remote.Faithful [] := by
  constructor
  · refine ⟨_, rfl, rfl, fun h => ?_⟩
    exact absurd h.nodup (by decide)
  · refine ⟨_, rfl, rfl, fun h => ?_⟩
    cases h.order_eq _ rfl

/-- Inputs that are listed against the order of their names are read in the order of the list. -/
theorem reordered_faithful :
    ∃ remote, ofTaskTemplate (listedTemplate "y,x"
        [("variables", .obj [("x", integerVariable), ("y", integerVariable)])]) = .ok remote ∧
      remote.interface.inputNames = ["y", "x"] ∧ remote.Faithful ["x", "y"] := by
  have honly {key : String} {v : Value} (h : v.Canonical) : (Value.obj [(key, v)]).Canonical :=
    .obj (List.pairwise_singleton _ _) (List.forall_mem_singleton.2 h)
  have hpair {k l : String} {v w : Value} (hlt : k < l) (hv : v.Canonical) (hw : w.Canonical) :
      (Value.obj [(k, v), (l, w)]).Canonical :=
    .obj (List.pairwise_pair.2 hlt)
      (List.forall_mem_cons.2 ⟨hv, List.forall_mem_singleton.2 hw⟩)
  have hvariable : integerVariable.Canonical := honly (honly (.str _))
  have hinputs : (Value.obj [("x", integerVariable), ("y", integerVariable)]).Canonical :=
    hpair (by decide) hvariable hvariable
  have hcanonical : (listedTemplate "y,x" [("variables", .obj [("x", integerVariable),
      ("y", integerVariable)])]).Canonical :=
    hpair (k := "config") (l := "interface") (by decide) (honly (.str _))
      (hpair (k := "inputs") (l := "outputs") (by decide) (honly hinputs)
        (honly (honly hvariable)))
  refine ⟨_, rfl, rfl, (faithful_iff hcanonical rfl).1.2 ?_⟩
  intro order hsome
  obtain rfl := Option.some.inj hsome
  exact ⟨by decide, nofun⟩

end RemoteInterface

end TaskGraph
