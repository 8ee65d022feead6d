import TaskGraph.Registry.Basic
import TaskGraph.Proofs.Declaration.Interface
import TaskGraph.Proofs.Json.Fields

namespace TaskGraph

open Json (Value)

/-- The type that is read where a type was written without its tag. -/
def DeclaredType.untagged (t : DeclaredType) : DeclaredType := .typed (t.literal?.getD .text)

/-- The interface of a reference to a task that was registered with this interface. -/
def Interface.echoed (i : Interface) : RemoteInterface :=
  ⟨⟨i.inputs, ⟨i.output.name, i.output.type.untagged⟩⟩, some i.inputNames⟩

/-- The same failure, of a call to something else. -/
def Error.retarget (label : String) : Error → Error
  | .arityMismatch _ fault => .arityMismatch label fault
  | .invalidArgument _ param source => .invalidArgument label param source
  | e => e

namespace DeclaredType

theorem tag_eq_untyped_iff {t : DeclaredType} : t.tag = "untyped" ↔ t = .untyped := by
  cases t with
  | untyped => decide
  | typed type => cases type <;> decide

theorem ofWireVariable_toWire (v : Variable) : ofWireVariable v.toWire = v.type.untagged := by
  obtain ⟨name, type⟩ := v
  cases type with
  | untyped => rfl
  | typed type => cases type <;> rfl

theorem untagged_of_ne {t : DeclaredType} (h : t ≠ .untyped) : t.untagged = t := by
  cases t with
  | untyped => exact absurd rfl h
  | typed type => rfl

end DeclaredType

theorem RemoteInterface.onlyOutput_toWire (v : Variable) :
    onlyOutput (some (.ofFields [(v.name, v.toWire)])) = .ok ⟨v.name, v.type.untagged⟩ := by
  rw [← DeclaredType.ofWireVariable_toWire]
  rfl

namespace Interface

/-- The fields of the configuration. -/
def configFields (i : Interface) : List (String × Value) :=
  [("inputOrder", .str (Text.join "," i.inputNames))] ++
    i.inputs.map (fun v => ("input-" ++ v.name, .str v.type.tag)) ++
    [("output-" ++ i.output.name, .str i.output.type.tag)]

theorem config_eq (i : Interface) : i.config = .ofFields i.configFields := rfl

theorem inputOrder_ne_inputKey (name : String) : "inputOrder" ≠ "input-" ++ name := by
  intro h
  have hchar := congrArg (fun s : String => s.toList[5]?) h
  simp at hchar

theorem outputKey_ne_inputKey (out name : String) : "output-" ++ out ≠ "input-" ++ name := by
  intro h
  have hchar := congrArg (fun s : String => s.toList[0]?) h
  simp at hchar

theorem inputOrder_ne_outputKey (name : String) : "inputOrder" ≠ "output-" ++ name := by
  intro h
  have hchar := congrArg (fun s : String => s.toList[0]?) h
  simp at hchar

variable {i : Interface} (h : i.Listable)

include h

theorem configFields_nodup : (i.configFields.map (·.1)).Nodup := by
  have hkeys : i.configFields.map (·.1) =
      "inputOrder" :: (i.inputNames.map ("input-" ++ ·) ++ ["output-" ++ i.output.name]) := by
    unfold configFields inputNames
    simp [List.map_map, Function.comp_def]
  rw [hkeys, List.nodup_cons, List.nodup_append]
  refine ⟨?_, ?_, by simp, ?_⟩
  · intro hmem
    rcases List.mem_append.1 hmem with hmem | hmem
    · obtain ⟨name, -, heq⟩ := List.mem_map.1 hmem
      exact inputOrder_ne_inputKey name heq.symm
    · exact inputOrder_ne_outputKey _ (List.mem_singleton.1 hmem)
  · refine List.pairwise_map.2 (List.Pairwise.imp ?_ h.nodup)
    intro name name' hne heq
    exact hne ((String.append_right_inj "input-").1 heq)
  · intro key hkey out hout
    obtain ⟨name, -, rfl⟩ := List.mem_map.1 hkey
    rw [List.mem_singleton.1 hout]
    exact (outputKey_ne_inputKey _ name).symm

theorem get?_config_inputOrder :
    i.config.get? "inputOrder" = some (.str (Text.join "," i.inputNames)) := by
  rw [config_eq]
  apply Value.get?_ofFields (configFields_nodup h)
  exact List.mem_append_left _ (List.mem_append_left _ List.mem_cons_self)

theorem get?_config_input {v : Variable} (hv : v ∈ i.inputs) :
    i.config.get? ("input-" ++ v.name) = some (.str v.type.tag) := by
  rw [config_eq]
  apply Value.get?_ofFields (configFields_nodup h)
  exact List.mem_append_left _ (List.mem_append_right _ (List.mem_map.2 ⟨v, hv, rfl⟩))

/-- The order is read back; the empty text stands for no inputs at all. -/
theorem splitOrder_join :
    RemoteInterface.splitOrder (Text.join "," i.inputNames) = i.inputNames := by
  unfold RemoteInterface.splitOrder
  cases hnames : i.inputNames with
  | nil => rfl
  | cons name names =>
    have hsplit : Text.split ',' (Text.join "," (name :: names)) = name :: names := by
      apply Text.split_join (List.cons_ne_nil _ _)
      rw [← hnames]
      exact h.commaFree
    split
    · next hempty =>
      rw [String.isEmpty_iff.1 hempty] at hsplit
      have hname : name = "" := (List.cons.inj hsplit).1.symm
      exact absurd hname (h.nonempty name (hnames ▸ List.mem_cons_self))
    · exact hsplit

theorem inputType_config {v : Variable} (hv : v ∈ i.inputs) :
    RemoteInterface.inputType (some i.config) v.name v.toWire = v.type := by
  unfold RemoteInterface.inputType
  rw [Option.bind_some, get?_config_input h hv, Option.bind_some, Value.str?]
  by_cases htype : v.type = .untyped
  · rw [if_pos (congrArg some (DeclaredType.tag_eq_untyped_iff.2 htype)), htype]
  · rw [if_neg, DeclaredType.ofWireVariable_toWire, DeclaredType.untagged_of_ne htype]
    intro htag
    exact htype (DeclaredType.tag_eq_untyped_iff.1 (Option.some.inj htag))

theorem namedInputs_config {fields : List (String × Value)}
    (hfields : ∀ v ∈ i.inputs, fields.lookup v.name = some v.toWire) {vs : List Variable}
    (hvs : ∀ v ∈ vs, v ∈ i.inputs) :
    RemoteInterface.namedInputs (some i.config) fields (vs.map (·.name)) = .ok vs := by
  induction vs with
  | nil => rfl
  | cons v vs ih =>
    have hv : v ∈ i.inputs := hvs v List.mem_cons_self
    have hrest := ih fun w hw => hvs w (List.mem_cons_of_mem _ hw)
    rw [List.map_cons, RemoteInterface.namedInputs]
    simp only [hfields v hv, inputType_config h hv, hrest]
    rfl

theorem templateInputs_config :
    RemoteInterface.templateInputs (some i.config) (some i.inputNames)
      ((Value.ofFields (i.inputs.map fun v => (v.name, v.toWire))).obj?) = .ok i.inputs := by
  have hkeys : ((i.inputs.map fun v => (v.name, v.toWire)).map (·.1)) = i.inputNames := by
    unfold inputNames
    rw [List.map_map]
    rfl
  have hnodup : ((i.inputs.map fun v => (v.name, v.toWire)).map (·.1)).Nodup := hkeys ▸ h.nodup
  obtain ⟨fields, hobj, hperm⟩ := Value.ofFields_eq hnodup
  have hlength : i.inputNames.length = fields.length := by
    rw [← hkeys, List.length_map, hperm.length_eq]
  have hlookup : ∀ v ∈ i.inputs, fields.lookup v.name = some v.toWire := by
    intro v hv
    apply Json.lookup_of_mem ((hperm.map (·.1)).nodup_iff.2 hnodup)
    exact hperm.mem_iff.2 (List.mem_map.2 ⟨v, hv, rfl⟩)
  rw [hobj, Value.obj?, RemoteInterface.templateInputs, Option.getD_some, if_pos hlength]
  exact namedInputs_config h hlookup fun _ hv => hv

end Interface

namespace Task

/-- The fields of the template. -/
def templateFields (t : Task) : List (String × Value) :=
  [("type", .str t.taskType),
    ("metadata", t.metadata),
    ("interface", t.interface.toWire),
    ("container", t.container.toWire),
    ("config", t.interface.config)] ++
    if t.secrets.isEmpty then [] else
      [("security_context", .obj [("secrets", .arr (t.secrets.map Secret.toJson))])]

theorem templateFields_nodup (t : Task) : (t.templateFields.map (·.1)).Nodup := by
  unfold templateFields
  by_cases hsecrets : t.secrets.isEmpty
  · rw [if_pos hsecrets]
    simp
  · rw [if_neg hsecrets]
    simp

theorem get?_template_config (t : Task) : t.template.get? "config" = some t.interface.config := by
  apply Value.get?_ofFields t.templateFields_nodup
  exact List.mem_append_left _ (by simp)

theorem get?_template_interface (t : Task) :
    t.template.get? "interface" = some t.interface.toWire := by
  apply Value.get?_ofFields t.templateFields_nodup
  exact List.mem_append_left _ (by simp)

theorem at?_template_inputs (t : Task) : t.template.at? ["interface", "inputs", "variables"] =
    some (.ofFields (t.interface.inputs.map fun v => (v.name, v.toWire))) := by
  rw [Value.at?_cons, get?_template_interface]
  rfl

theorem at?_template_outputs (t : Task) : t.template.at? ["interface", "outputs", "variables"] =
    some (.ofFields [(t.interface.output.name, t.interface.output.toWire)]) := by
  rw [Value.at?_cons, get?_template_interface]
  rfl

/-- The template of a task with listable inputs has the interface of the task. -/
theorem ofTaskTemplate_template {t : Task} (h : t.interface.Listable) :
    RemoteInterface.ofTaskTemplate t.template = .ok t.interface.echoed := by
  unfold RemoteInterface.ofTaskTemplate
  rw [get?_template_config, at?_template_inputs, at?_template_outputs,
    RemoteInterface.onlyOutput_toWire]
  simp only [Option.bind_some, Interface.get?_config_inputOrder h, Value.str?, Option.map_some,
    Interface.splitOrder_join h, Interface.templateInputs_config h]
  rfl

end Task

namespace Callable

theorem bindInputs_retarget (label label' : String) (args : List Argument)
    (inputs : List Variable) :
    bindInputs label' args inputs =
      (bindInputs label args inputs).mapError (Error.retarget label') := by
  induction args generalizing inputs with
  | nil => rfl
  | cons arg args ih =>
    cases inputs with
    | nil => rfl
    | cons input inputs =>
      unfold bindInputs
      rw [ih inputs]
      cases arg.bind input.type with
      | error e => rfl
      | ok binding =>
        cases bindInputs label args inputs with
        | error e => rfl
        | ok rest => rfl

/-- What a list of arguments is bound to depends on the inputs of the callable alone. -/
theorem bind_positional_retarget {c c' : Callable} (args : List Argument)
    (hinputs : c'.interface.inputs = c.interface.inputs) (hc : c.convention.takesPositional)
    (hc' : c'.convention.takesPositional) :
    c'.bind (.positional args) =
      (c.bind (.positional args)).mapError (Error.retarget c'.label) := by
  have hnames : c'.interface.inputNames = c.interface.inputNames := by
    unfold Interface.inputNames
    rw [hinputs]
  have horder : c'.order (.positional args) = c.order (.positional args) := by
    unfold order
    rw [hnames]
    simp only [hc, hc']
  unfold bind
  rw [horder, hinputs]
  cases c.order (.positional args) with
  | error fault => rfl
  | ok ordered => exact bindInputs_retarget c.label c'.label ordered c.interface.inputs

end Callable

/-- A task that was registered and is referred to has the interface with which it was declared, but
    for the type of an untyped output. So a list of arguments is bound as it is by the task itself,
    or refused for the same reason. -/
theorem Task.echoed_of_declare {signature : Signature} {options : TaskOptions} {scope : Scope}
    {container : Container} {d : Task}
    (h : (Task.declare signature options scope container).run.value = .ok d) :
    ∃ (template : Value) (remote : RemoteInterface),
      d.toWire.at? ["spec", "template"] = some template ∧
      RemoteInterface.ofTaskTemplate template = .ok remote ∧
      remote.interface.inputs = d.interface.inputs ∧
      remote.inputOrder = some d.interface.inputNames ∧
      remote.interface.output.name = d.interface.output.name ∧
      remote.interface.output.type =
        (match d.interface.output.type with
          | .untyped => .typed .text
          | .typed type => .typed type) ∧
      ∀ (id : Identifier) (body : TaskBody), ∃ c : Callable,
        Registry.callableOfReference? ⟨id, .task, some remote⟩ = some c ∧
        ∀ args : List Argument, c.bind (.positional args) =
          ((Registry.callableOfTask ⟨d, body⟩).bind (.positional args)).mapError
            (Error.retarget c.label) := by
  have hecho := Task.ofTaskTemplate_template (Task.listable_of_declare h)
  refine ⟨d.template, d.interface.echoed, rfl, hecho, rfl, rfl, rfl, ?_, ?_⟩
  · cases htype : d.interface.output.type with
    | untyped => rw [Interface.echoed, htype]; rfl
    | typed type => rw [Interface.echoed, htype]; rfl
  · intro id body
    refine ⟨_, rfl, ?_⟩
    intro args
    exact Callable.bind_positional_retarget args rfl rfl rfl

theorem Task.echoed_pair :
    ∃ (d : Task) (template : Value) (remote : RemoteInterface),
      (Task.declare ⟨"pair", 2⟩ {} ⟨"p", "d", "v"⟩ {}).run.value = .ok d ∧
        d.toWire.at? ["spec", "template"] = some template ∧
        RemoteInterface.ofTaskTemplate template = .ok remote ∧
        remote.interface =
          ⟨[⟨"input0", .untyped⟩, ⟨"input1", .untyped⟩], ⟨"output0", .typed .text⟩⟩ := by
  obtain ⟨d, h⟩ : ∃ d : Task,
      (Task.declare ⟨"pair", 2⟩ {} ⟨"p", "d", "v"⟩ {}).run.value = .ok d := by
    apply Exists.intro
    rfl
  have hinterface : d.interface =
      ⟨[⟨"input0", .untyped⟩, ⟨"input1", .untyped⟩], ⟨"output0", .untyped⟩⟩ :=
    (Task.declare_eq_ok h).2.1
  obtain ⟨template, remote, htemplate, hremote, hinputs, -, hname, htype, -⟩ :=
    Task.echoed_of_declare h
  refine ⟨d, template, remote, h, htemplate, hremote, ?_⟩
  obtain ⟨⟨inputs, ⟨name, type⟩⟩, order⟩ := remote
  rw [hinterface] at hinputs hname htype
  dsimp only at hinputs hname htype
  rw [hinputs, hname, htype]

end TaskGraph
