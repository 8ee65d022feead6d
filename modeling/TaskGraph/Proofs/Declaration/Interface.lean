import TaskGraph.Declaration.Task
import TaskGraph.Proofs.Text.Reading

namespace TaskGraph

/-- An interface whose input names can be listed with commas between them. -/
structure Interface.Listable (i : Interface) : Prop where
  nodup : i.inputNames.Nodup
  commaFree : ∀ name ∈ i.inputNames, ',' ∉ name.toList
  nonempty : ∀ name ∈ i.inputNames, name ≠ ""

namespace InterfaceOptions

variable {o : InterfaceOptions} {arity : Nat}

theorem inputNames_interface (o : InterfaceOptions) (arity : Nat) :
    (o.interface arity).inputNames = (List.range arity).map o.inputName := by
  unfold interface Interface.inputNames
  rw [List.map_map]
  rfl

theorem nameIssues_eq_nil {names : List String} (h : nameIssues arity names = []) :
    names.length = arity ∧ (∀ name ∈ names, ',' ∉ name.toList) ∧ (∀ name ∈ names, name ≠ "") ∧
      names.Nodup := by
  unfold nameIssues at h
  rw [List.append_eq_nil_iff, List.append_eq_nil_iff, List.append_eq_nil_iff] at h
  obtain ⟨⟨⟨hlength, hcomma⟩, hempty⟩, hnodup⟩ := h
  refine ⟨?_, ?_, ?_, ?_⟩
  · by_cases hlen : names.length = arity
    · exact hlen
    · rw [if_neg hlen] at hlength
      cases hlength
  · intro name hname hmem
    have hany : names.any (fun n => n.contains ',') = true := by
      rw [List.any_eq_true]
      exact ⟨name, hname, by rw [String.contains_char_eq]; exact decide_eq_true hmem⟩
    rw [if_pos hany] at hcomma
    cases hcomma
  · rintro name hname rfl
    have hany : names.any (fun n => n.isEmpty) = true :=
      List.any_eq_true.2 ⟨"", hname, rfl⟩
    rw [if_pos hany] at hempty
    cases hempty
  · by_cases hdup : names.Nodup
    · exact hdup
    · rw [if_neg hdup] at hnodup
      cases hnodup

theorem inputNames_of_given {names : List String} (hgiven : o.paramNames = some names)
    (hlength : names.length = arity) : (o.interface arity).inputNames = names := by
  rw [inputNames_interface]
  apply List.ext_getElem
  · rw [List.length_map, List.length_range, hlength]
  · intro i hi hi'
    rw [List.getElem_map, List.getElem_range]
    unfold inputName
    rw [hgiven, Option.getD_some, List.getElem?_eq_getElem hi', Option.getD_some]

theorem inputName_of_none (hnone : o.paramNames = none) (position : Nat) :
    o.inputName position = "input" ++ toString position := by
  unfold inputName
  rw [hnone]
  rfl

theorem comma_notMem_default (position : Nat) :
    ',' ∉ ("input" ++ toString position).toList := by
  intro hmem
  rw [String.toList_append] at hmem
  rcases List.mem_append.1 hmem with hmem | hmem
  · exact absurd hmem (by decide)
  · exact absurd (Text.isDigit_of_mem_toString hmem) (by decide)

theorem default_inj {i j : Nat} (h : "input" ++ toString i = "input" ++ toString j) : i = j :=
  Text.toString_nat_inj.1 ((String.append_right_inj "input").1 h)

/-- Options with nothing wrong about them give a listable interface. Names that are given are
    checked for that, and names made from positions are listable anyway. -/
theorem listable_of_issues_eq_nil (h : o.issues arity = []) : (o.interface arity).Listable := by
  cases hgiven : o.paramNames with
  | some names =>
    have hnames : nameIssues arity names = [] := by
      unfold issues at h
      rw [hgiven] at h
      simp only [List.append_eq_nil_iff] at h
      exact h.1.1.1.1
    obtain ⟨hlength, hcomma, hempty, hnodup⟩ := nameIssues_eq_nil hnames
    have heq := inputNames_of_given hgiven hlength
    exact ⟨heq ▸ hnodup, heq ▸ hcomma, heq ▸ hempty⟩
  | none =>
    have heq : (o.interface arity).inputNames =
        (List.range arity).map fun i => "input" ++ toString i := by
      rw [inputNames_interface]
      exact List.map_congr_left fun i _ => inputName_of_none hgiven i
    refine ⟨?_, ?_, ?_⟩
    · rw [heq]
      refine List.pairwise_map.2 (List.Pairwise.imp ?_ (List.nodup_range (n := arity)))
      intro i j hne hsame
      exact hne (default_inj hsame)
    · intro name hname
      rw [heq] at hname
      obtain ⟨i, -, rfl⟩ := List.mem_map.1 hname
      exact comma_notMem_default i
    · intro name hname
      rw [heq] at hname
      obtain ⟨i, -, rfl⟩ := List.mem_map.1 hname
      intro hempty
      have hlength := congrArg String.length hempty
      rw [String.length_append] at hlength
      have hinput : "input".length = 5 := by decide
      have hzero : "".length = 0 := by decide
      omega

end InterfaceOptions

theorem Report.passes_of_conclude {report : Report} {subject : String}
    (h : (report.conclude subject).run.value = .ok ()) : report.errors = [] := by
  rw [conclude, Action.run_bind_eq_ok_iff] at h
  obtain ⟨-, -, h⟩ := h
  split at h
  · next hpasses => exact List.isEmpty_iff.1 hpasses
  · cases h

theorem Report.errors_map_error (texts : List String) :
    Report.errors (texts.map .error) = texts := by
  unfold Report.errors
  rw [List.filterMap_map]
  exact List.filterMap_some

theorem TaskOptions.issues_of_findings {o : TaskOptions} {arity : Nat}
    (h : Report.errors (o.findings arity) = []) : o.interface.issues arity = [] := by
  unfold findings Report.errors at h
  rw [List.filterMap_append, List.filterMap_append, List.append_eq_nil_iff,
    List.append_eq_nil_iff] at h
  rw [← Report.errors_map_error (o.interface.issues arity)]
  exact h.1.1

theorem Task.declare_eq_ok {signature : Signature} {options : TaskOptions} {scope : Scope}
    {container : Container} {task : Task}
    (h : (Task.declare signature options scope container).run.value = .ok task) :
    task.id = scope.identifier .task (Text.trim signature.name) ∧
      task.interface = options.interface.interface signature.arity ∧
      options.interface.issues signature.arity = [] := by
  rw [Task.declare, Action.run_bind_eq_ok_iff] at h
  obtain ⟨name, hname, h⟩ := h
  rw [Action.run_bind_eq_ok_iff] at h
  obtain ⟨⟨⟩, hreport, h⟩ := h
  obtain rfl := Except.ok.inj h
  have hnode : signature.nodeName = .ok name := hname
  have hissues := TaskOptions.issues_of_findings (Report.passes_of_conclude hreport)
  unfold Signature.nodeName at hnode
  split at hnode
  · cases hnode
  · obtain rfl := Except.ok.inj hnode
    exact ⟨rfl, rfl, hissues⟩

theorem WorkflowHeader.declare_eq_ok {signature : Signature} {options : InterfaceOptions}
    {scope : Scope} {header : WorkflowHeader}
    (h : (WorkflowHeader.declare signature options scope).run.value = .ok header) :
    header.id = scope.identifier .workflow header.name ∧
      header.interface = options.interface signature.arity ∧
      options.issues signature.arity = [] := by
  rw [WorkflowHeader.declare, Action.run_bind_eq_ok_iff] at h
  obtain ⟨name, -, h⟩ := h
  rw [Action.run_bind_eq_ok_iff] at h
  obtain ⟨⟨⟩, hreport, h⟩ := h
  obtain rfl := Except.ok.inj h
  have hissues := Report.passes_of_conclude hreport
  rw [Report.errors_map_error] at hissues
  exact ⟨rfl, rfl, hissues⟩

/-- The input names of every accepted declaration can be listed with commas between them. -/
theorem Task.listable_of_declare {signature : Signature} {options : TaskOptions} {scope : Scope}
    {container : Container} {task : Task}
    (h : (Task.declare signature options scope container).run.value = .ok task) :
    task.interface.Listable := by
  obtain ⟨-, hinterface, hissues⟩ := Task.declare_eq_ok h
  rw [hinterface]
  exact InterfaceOptions.listable_of_issues_eq_nil hissues

@[inherit_doc Task.listable_of_declare]
theorem WorkflowHeader.listable_of_declare {signature : Signature} {options : InterfaceOptions}
    {scope : Scope} {header : WorkflowHeader}
    (h : (WorkflowHeader.declare signature options scope).run.value = .ok header) :
    header.interface.Listable := by
  obtain ⟨-, hinterface, hissues⟩ := WorkflowHeader.declare_eq_ok h
  rw [hinterface]
  exact InterfaceOptions.listable_of_issues_eq_nil hissues

end TaskGraph
