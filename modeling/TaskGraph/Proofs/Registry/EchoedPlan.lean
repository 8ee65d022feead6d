import TaskGraph.Proofs.Graph.Closure
import TaskGraph.Proofs.Registry.EchoedTemplate
import TaskGraph.Proofs.Trace.Arguments

namespace TaskGraph

open Json (Value)

/-- A variable as it is read where it was written without its tag. -/
def Variable.untagged (v : Variable) : Variable := ⟨v.name, v.type.untagged⟩

namespace RemoteInterface

/-- The input that a parameter of a launch plan declares. -/
def ofParameter (field : String × Value) : Variable :=
  ⟨field.1, ((field.2.get? "var").map DeclaredType.ofWireVariable).getD .untyped⟩

end RemoteInterface

namespace LaunchPlan

/-- The parameters of the plan, each with its name. -/
def parameters (p : LaunchPlan) : List (String × Value) :=
  p.interface.inputs.map fun v =>
    (v.name, .obj [("required", .bool true), ("var", v.toWire)])

theorem at?_toWire_inputs (p : LaunchPlan) : p.toWire.at? ["spec", "default_inputs"] =
    some (.obj [("parameters", .ofFields p.parameters)]) := rfl

theorem map_ofParameter_parameters (p : LaunchPlan) :
    p.parameters.map RemoteInterface.ofParameter = p.interface.inputs.map Variable.untagged := by
  unfold parameters
  rw [List.map_map]
  refine List.map_congr_left fun v _ => ?_
  rw [Variable.untagged, ← DeclaredType.ofWireVariable_toWire]
  rfl

theorem parameters_nodup {p : LaunchPlan} (h : p.interface.Listable) :
    (p.parameters.map (·.1)).Nodup := by
  have hnames : p.parameters.map (·.1) = p.interface.inputNames := by
    unfold parameters Interface.inputNames
    rw [List.map_map]
    rfl
  exact hnames ▸ h.nodup

/-- What a closure with the parameters of a plan and the outputs of its interface declares. -/
theorem ofLaunchPlanClosure_eq_ok {p : LaunchPlan} (h : p.interface.Listable) {closure : Value}
    (hinputs : closure.get? "expected_inputs" = p.toWire.at? ["spec", "default_inputs"])
    (houtputs : closure.get? "expected_outputs" = p.interface.toWire.get? "outputs") :
    ∃ inputs, RemoteInterface.ofLaunchPlanClosure closure =
        .ok ⟨⟨inputs, p.interface.output.untagged⟩, none⟩ ∧
      inputs.Perm (p.interface.inputs.map Variable.untagged) ∧
      inputs.Pairwise (·.name < ·.name) := by
  obtain ⟨sorted, hobj, hperm⟩ := Value.ofFields_eq (parameters_nodup h)
  have hsorted := Value.sortedKeys_of_ofFields_eq hobj
  have hparameters : closure.at? ["expected_inputs", "parameters"] = some (.obj sorted) := by
    rw [Value.at?_cons, hinputs, at?_toWire_inputs, hobj]
    rfl
  have hvariables : closure.at? ["expected_outputs", "variables"] =
      some (.ofFields [(p.interface.output.name, p.interface.output.toWire)]) := by
    rw [Value.at?_cons, houtputs]
    rfl
  refine ⟨sorted.map RemoteInterface.ofParameter, ?_, ?_, ?_⟩
  · unfold RemoteInterface.ofLaunchPlanClosure
    rw [hparameters, hvariables, RemoteInterface.onlyOutput_toWire]
    rfl
  · rw [← p.map_ofParameter_parameters]
    exact hperm.map _
  · exact List.pairwise_map.2 hsorted

end LaunchPlan

/-- A workflow that was registered and is referred to by its launch plan has the interface with
    which it was declared, but its inputs are in the order of their names and what was untyped is
    text. So a call by name is bound exactly when it names every input once and nothing else, and
    every value that it hands in is of the type that was read back. -/
theorem WorkflowHeader.echoed_plan_of_declare {signature : Signature} {options : InterfaceOptions}
    {scope : Scope} {header : WorkflowHeader}
    (h : (WorkflowHeader.declare signature options scope).run.value = .ok header)
    {registry : Registry} {calls : CallLog} {result : Binding} {g : Graph}
    (hg : Graph.ofCalls registry calls result header = .ok g) {closure : Value}
    (hinputs : closure.get? "expected_inputs" =
      g.launchPlan.toWire.at? ["spec", "default_inputs"])
    (houtputs : closure.get? "expected_outputs" = g.interface.toWire.get? "outputs") :
    ∃ remote, RemoteInterface.ofLaunchPlanClosure closure = .ok remote ∧
      remote.interface.inputs.Perm (header.interface.inputs.map Variable.untagged) ∧
      remote.interface.inputs.Pairwise (·.name < ·.name) ∧
      remote.interface.output = header.interface.output.untagged ∧
      remote.inputOrder = none ∧
      ∀ id : Identifier, ∃ c : Callable,
        Registry.callableOfReference? ⟨id, .launchPlan, some remote⟩ = some c ∧
        ∀ args : List (String × Argument), (∃ bound, c.bind (.keyword args) = .ok bound) ↔
          (args.map (·.1)).Perm header.interface.inputNames ∧
            ∀ v ∈ remote.interface.inputs, ∀ a, (v.name, a) ∈ args →
              ∀ value, a.value? = some value → v.type.accepts value := by
  have hlistable := WorkflowHeader.listable_of_declare h
  obtain ⟨-, -, hinterface, -⟩ := Graph.ofCalls_eq_ok hg
  have hplan : g.launchPlan.interface = header.interface := hinterface
  obtain ⟨inputs, hclosure, hperm, hsorted⟩ :=
    g.launchPlan.ofLaunchPlanClosure_eq_ok (hplan ▸ hlistable) hinputs houtputs
  rw [hplan] at hclosure hperm
  refine ⟨_, hclosure, hperm, hsorted, rfl, rfl, fun id => ?_⟩
  obtain ⟨c, hc, hinputs, hconvention⟩ : ∃ c, Registry.callableOfReference? ⟨id, .launchPlan,
      some ⟨⟨inputs, header.interface.output.untagged⟩, none⟩⟩ = some c ∧
      c.interface.inputs = inputs ∧ c.convention = .keyword := ⟨_, rfl, rfl, rfl⟩
  have hnames : c.interface.inputNames.Perm header.interface.inputNames := by
    have hmap := hperm.map (·.name)
    rw [← hinputs, List.map_map] at hmap
    exact hmap
  refine ⟨c, hc, fun args => ?_⟩
  rw [Callable.exists_bind_keyword_iff (hnames.nodup_iff.2 hlistable.nodup) (.inl hconvention),
    hinputs]
  refine and_congr (hnames.congr_right _) (forall₂_congr fun v hv => ?_)
  obtain ⟨w, -, rfl⟩ := List.mem_map.1 (hperm.mem_iff.1 hv)
  exact forall₂_congr fun a _ => Argument.exists_bind_typed_iff

theorem WorkflowHeader.echoed_plan_scale :
    ∃ (header : WorkflowHeader) (g : Graph) (closure : Value) (remote : RemoteInterface),
      (WorkflowHeader.declare ⟨"scale", 2⟩
        { paramTypes := some [.literal .float, .literal .integer] }
        ⟨"p", "d", "v"⟩).run.value = .ok header ∧
      Graph.ofCalls .empty .empty (.ofInput "input0") header = .ok g ∧
      closure.get? "expected_inputs" = g.launchPlan.toWire.at? ["spec", "default_inputs"] ∧
      closure.get? "expected_outputs" = g.interface.toWire.get? "outputs" ∧
      RemoteInterface.ofLaunchPlanClosure closure = .ok remote ∧
      remote.interface =
        ⟨[⟨"input0", .typed .float⟩, ⟨"input1", .typed .integer⟩], ⟨"output0", .typed .text⟩⟩ := by
  obtain ⟨header, h⟩ : ∃ header, (WorkflowHeader.declare ⟨"scale", 2⟩
      { paramTypes := some [.literal .float, .literal .integer] }
      ⟨"p", "d", "v"⟩).run.value = .ok header := by
    apply Exists.intro
    rfl
  have hinterface : header.interface =
      ⟨[⟨"input0", .typed .float⟩, ⟨"input1", .typed .integer⟩], ⟨"output0", .untyped⟩⟩ :=
    (WorkflowHeader.declare_eq_ok h).2.1
  obtain ⟨g, hg⟩ : ∃ g, Graph.ofCalls .empty .empty (.ofInput "input0") header = .ok g :=
    ⟨_, rfl⟩
  obtain ⟨closure, hinputs, houtputs⟩ : ∃ closure : Value,
      closure.get? "expected_inputs" = g.launchPlan.toWire.at? ["spec", "default_inputs"] ∧
      closure.get? "expected_outputs" = g.interface.toWire.get? "outputs" :=
    ⟨.obj [("expected_inputs", .obj [("parameters", .ofFields g.launchPlan.parameters)]),
      ("expected_outputs", .obj [("variables",
        .ofFields [(g.interface.output.name, g.interface.output.toWire)])])], rfl, rfl⟩
  obtain ⟨remote, hremote, hperm, hsorted, houtput, -, -⟩ :=
    WorkflowHeader.echoed_plan_of_declare h hg hinputs houtputs
  refine ⟨header, g, closure, remote, h, hg, hinputs, houtputs, hremote, ?_⟩
  rw [hinterface] at hperm houtput
  have hlisted : remote.interface.inputs =
      [⟨"input0", .typed .float⟩, ⟨"input1", .typed .integer⟩] := by
    refine List.Perm.eq_of_pairwise ?_ hsorted (by decide) hperm
    intro a b _ _ hlt hgt
    exact absurd hgt (String.lt_asymm hlt)
  obtain ⟨⟨inputs, output⟩, order⟩ := remote
  dsimp only at hlisted houtput
  rw [hlisted, houtput]
  rfl

end TaskGraph
