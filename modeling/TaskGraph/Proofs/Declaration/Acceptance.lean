import TaskGraph.Proofs.Declaration.Rules

namespace TaskGraph

/-- The types that options give for the inputs of a function of this arity, one by one. -/
def InterfaceOptions.specs (o : InterfaceOptions) (arity : Nat) : List (Option TypeSpec) :=
  match o.paramTypes with
  | some types => types.map some
  | none => List.replicate arity none

/-- An interface as options declare it for a function of this arity. -/
structure Interface.DeclaredBy (i : Interface) (o : InterfaceOptions) (arity : Nat) : Prop
    extends i.Listable where
  length_inputs : i.inputs.length = arity
  names_given : ∀ names, o.paramNames = some names → i.inputNames = names
  names_default : o.paramNames = none →
    i.inputNames = (List.range arity).map fun position => "input" ++ toString position
  types : List.Forall₂ DeclaredType.MeantBy (o.specs arity) (i.inputs.map Variable.type)
  outputName : i.output.name = o.outputName.getD "output0"
  outputType : DeclaredType.MeantBy o.outputType i.output.type

/-- A task as its signature and options declare it. -/
structure Task.DeclaredBy (task : Task) (signature : Signature) (options : TaskOptions)
    (scope : Scope) (container : Container) : Prop where
  name : task.name = Text.trim signature.name
  id : task.id = scope.identifier .task (Text.trim signature.name)
  args : task.container.args = container.command ++
    ["--task", Text.trim signature.name, "--inputdir", container.inputDir,
      "--outputdir", container.outputDir]
  interface : task.interface.DeclaredBy options.interface signature.arity

/-- A workflow as its signature and options declare it. -/
structure WorkflowHeader.DeclaredBy (header : WorkflowHeader) (signature : Signature)
    (options : InterfaceOptions) (scope : Scope) : Prop where
  name : header.name = Text.trim signature.name
  id : header.id = scope.identifier .workflow (Text.trim signature.name)
  interface : header.interface.DeclaredBy options signature.arity

/-- How the declaration of a function ends, and what it logs. -/
structure Checked {α : Type} (signature : Signature) (options : TaskOptions) (subject : String)
    (Declared : α → Prop) (outcome : Logged (Except Error α)) : Prop where
  naming_iff : outcome.value = .error (.naming signature.arity) ↔ Text.trim signature.name = ""
  validation_iff : (∃ issues, outcome.value = .error (.validation subject issues)) ↔
    Text.trim signature.name ≠ "" ∧
      ∃ rule ∈ Rule.all signature.arity options.secrets, rule.Broken options signature.arity
  /-- All rules that are broken are reported, in their order, and nothing else is. -/
  issues_iff : ∀ issues, outcome.value = .error (.validation subject issues) ↔
    Text.trim signature.name ≠ "" ∧ issues ≠ [] ∧
      Rule.Issues options signature.arity (Rule.all signature.arity options.secrets) issues
  accepted_iff : (∃ a, outcome.value = .ok a) ↔
    Text.trim signature.name ≠ "" ∧
      ∀ rule ∈ Rule.all signature.arity options.secrets, ¬ rule.Broken options signature.arity
  declared : ∀ a, outcome.value = .ok a → Declared a
  /-- A secret without a key is only warned of. -/
  log : outcome.log = if Text.trim signature.name = "" then [] else
    (options.secrets.filter (·.key.isNone)).map fun secret =>
      ⟨.warn, subject ++ ": " ++ ("secret " ++ secret.text ++
        " has no key; the whole group is requested")⟩

namespace InterfaceOptions

open Rule

variable {o : InterfaceOptions} {options : TaskOptions} {arity : Nat}

theorem specs_eq (hcount : ∀ types, o.paramTypes = some types → types.length = arity) :
    o.specs arity = (List.range arity).map o.inputSpec? := by
  unfold specs
  cases hgiven : o.paramTypes with
  | some types =>
    have hlength := hcount types hgiven
    apply List.ext_getElem
    · simp [hlength]
    · intro position hleft hright
      rw [List.length_map] at hleft
      simp [inputSpec?, hgiven, hleft]
  | none =>
    symm
    rw [List.eq_replicate_iff]
    simp [inputSpec?, hgiven]

theorem meantBy_declared {given : Option TypeSpec}
    (h : ∀ spec, given = some spec → ∃ type, spec.Means type) :
    DeclaredType.MeantBy given (declared given) := by
  cases given with
  | none => exact .untyped
  | some spec =>
    obtain ⟨type, hmeans⟩ := h spec rfl
    have hresolved := TypeSpec.resolve?_eq_some_iff.2 hmeans
    simp only [declared, Option.bind_some, hresolved]
    exact .typed hmeans

/-- Options that break no rule declare the interface that is built from them. -/
theorem declaredBy_interface
    (hkept : ∀ rule ∈ Rule.all arity options.secrets, ¬ rule.Broken options arity) :
    (options.interface.interface arity).DeclaredBy options.interface arity := by
  have hfindings : Report.errors (options.findings arity) = [] :=
    (options.issues_errors_findings arity).eq_nil_iff.2 hkept
  have hnames (names : List String) (hgiven : options.interface.paramNames = some names) :
      names.length = arity := by
    by_contra hcount
    exact hkept .nameCount (by simp [Rule.all]) ⟨_, .nameCount hgiven hcount⟩
  have htypes (types : List TypeSpec) (hgiven : options.interface.paramTypes = some types) :
      types.length = arity := by
    by_contra hcount
    exact hkept .typeCount (by simp [Rule.all]) ⟨_, .typeCount hgiven hcount⟩
  have hinput (position : Nat) (hposition : position ∈ List.range arity) :
      DeclaredType.MeantBy (options.interface.inputSpec? position)
        (declared (options.interface.inputSpec? position)) := by
    apply meantBy_declared
    intro spec hspec
    by_contra hunknown
    obtain ⟨types, hgiven, htype⟩ := inputSpec?_eq_some_iff.1 hspec
    exact hkept (.inputType position) (by simpa [Rule.all] using hposition)
      ⟨_, .inputType hgiven htype (not_exists.1 hunknown)⟩
  constructor
  case toListable => exact listable_of_issues_eq_nil (TaskOptions.issues_of_findings hfindings)
  case length_inputs => simp [interface]
  case names_given =>
    intro names hgiven
    exact inputNames_of_given hgiven (hnames names hgiven)
  case names_default =>
    intro hnone
    rw [inputNames_interface]
    exact List.map_congr_left fun position _ => inputName_of_none hnone position
  case types =>
    rw [specs_eq htypes, interface, List.map_map, List.forall₂_map_left_iff,
      List.forall₂_map_right_iff, List.forall₂_same]
    exact hinput
  case outputName =>
    unfold interface outputNameOrDefault
    cases hgiven : options.interface.outputName with
    | none => rfl
    | some name =>
      have hblank : ¬ Text.isBlank name := fun hblank =>
        hkept .outputName (by simp [Rule.all])
          ⟨_, .outputName hgiven (Text.trim_eq_empty_iff.2 hblank)⟩
      simp [hblank]
  case outputType =>
    apply meantBy_declared
    intro spec hgiven
    by_contra hunknown
    exact hkept .outputType (by simp [Rule.all]) ⟨_, .outputType hgiven (not_exists.1 hunknown)⟩

end InterfaceOptions

namespace Report

variable {report rest : Report}

theorem warnings_append : warnings (report ++ rest) = warnings report ++ warnings rest :=
  List.filterMap_append

theorem warnings_map_error (texts : List String) : warnings (texts.map .error) = [] := by
  simp [warnings, Finding.warning?]

theorem warnings_ite_error {p : Prop} [Decidable p] {text : String} :
    warnings (if p then [.error text] else []) = [] := by
  split <;> rfl

end Report

theorem Secret.warnings_findings (secret : Secret) :
    Report.warnings secret.findings = if secret.key.isNone then
      ["secret " ++ secret.text ++ " has no key; the whole group is requested"] else [] := by
  rw [findings, Report.warnings_append, Report.warnings_ite_error, List.nil_append]
  cases secret.key with
  | some key => exact Report.warnings_ite_error
  | none => rfl

theorem TaskOptions.warnings_findings (options : TaskOptions) (arity : Nat) :
    Report.warnings (options.findings arity) = (options.secrets.filter (·.key.isNone)).map
      fun secret => "secret " ++ secret.text ++ " has no key; the whole group is requested" := by
  rw [findings, Report.warnings_append, Report.warnings_append, Report.warnings_map_error,
    Report.warnings_ite_error]
  induction options.secrets with
  | nil => rfl
  | cons secret secrets ih =>
    simp only [List.nil_append] at ih ⊢
    rw [List.flatMap_cons, Report.warnings_append, ih, Secret.warnings_findings]
    cases hkey : secret.key.isNone with
    | true => simp [hkey]
    | false => simp [hkey]

namespace Action

theorem run_log (level : Level) (text : String) :
    (log level text).run = ⟨.ok (), [⟨level, text⟩]⟩ := rfl

theorem run_forM_log {α : Type} (level : Level) (text : α → String) (as : List α) :
    (forM as fun a => log level (text a)).run = ⟨.ok ⟨⟩, as.map fun a => ⟨level, text a⟩⟩ := by
  induction as with
  | nil => rfl
  | cons a as ih =>
    rw [List.forM_cons, ExceptT.run_bind, run_log]
    ext1
    · simp [ih]
    · simp [ih]

end Action

namespace Report

/-- All warnings are logged, whether or not there are errors. -/
theorem run_conclude (report : Report) (subject : String) :
    (report.conclude subject).run =
      ⟨if report.errors = [] then .ok () else .error (.validation subject report.errors),
        report.warnings.map fun text => ⟨.warn, s!"{subject}: {text}"⟩⟩ := by
  rw [conclude, List.forM_eq_forM, ExceptT.run_bind,
    Action.run_forM_log .warn (fun text => s!"{subject}: {text}")]
  by_cases herrors : report.errors = []
  · ext1
    · simp [passes, herrors]
    · simp [passes, herrors]
  · ext1
    · simp [passes, herrors]
    · simp [passes, herrors]

end Report

namespace Signature

variable {α : Type}

/-- A declaration in general: what is built once the name and the report are good. -/
def declare (signature : Signature) (report : Report) (subject : String → String)
    (build : String → α) : Action α := do
  let name ← Action.ofExcept signature.nodeName
  report.conclude (subject name)
  return build name

variable {signature : Signature} {report : Report} {subject : String → String} {build : String → α}

theorem run_declare_of_unnamed (h : Text.trim signature.name = "") :
    (signature.declare report subject build).run = ⟨.error (.naming signature.arity), []⟩ := by
  have hblank := Text.trim_eq_empty_iff.1 h
  rw [declare, ExceptT.run_bind, Action.run_ofExcept, nodeName, if_pos hblank]
  rfl

theorem run_declare_of_named (h : Text.trim signature.name ≠ "") :
    (signature.declare report subject build).run =
      ⟨if report.errors = [] then .ok (build (Text.trim signature.name))
        else .error (.validation (subject (Text.trim signature.name)) report.errors),
        report.warnings.map fun text =>
          ⟨.warn, subject (Text.trim signature.name) ++ ": " ++ text⟩⟩ := by
  have hblank : ¬ Text.isBlank signature.name := fun hblank => h (Text.trim_eq_empty_iff.2 hblank)
  rw [declare, ExceptT.run_bind, Action.run_ofExcept, nodeName, if_neg hblank, pure_bind]
  dsimp only
  rw [ExceptT.run_bind, Report.run_conclude]
  by_cases herrors : report.errors = []
  · rw [if_pos herrors, if_pos herrors]
    exact Logged.ext rfl (List.append_nil _)
  · rw [if_neg herrors, if_neg herrors]
    exact Logged.ext rfl (List.append_nil _)

end Signature

/-- The common form of declarations is checked by the rules, whatever it builds. -/
theorem Signature.checked_declare {α : Type} (signature : Signature) (options : TaskOptions)
    (subject : String → String) (build : String → α) {Declared : α → Prop}
    (hbuild : (options.interface.interface signature.arity).DeclaredBy options.interface
      signature.arity → Declared (build (Text.trim signature.name))) :
    Checked signature options (subject (Text.trim signature.name)) Declared
      (signature.declare (options.findings signature.arity) subject build).run := by
  have hissues := options.issues_errors_findings signature.arity
  by_cases hname : Text.trim signature.name = ""
  · rw [run_declare_of_unnamed hname]
    constructor
    case declared =>
      intro a h
      cases h
    all_goals simp [hname]
  · rw [run_declare_of_named hname]
    have hlog := options.warnings_findings signature.arity
    by_cases hgood : Report.errors (options.findings signature.arity) = []
    · have hkept := hissues.eq_nil_iff.1 hgood
      rw [if_pos hgood, hlog]
      constructor
      case naming_iff => simp [hname]
      case validation_iff => simpa using fun _ => hkept
      case issues_iff =>
        intro issues
        constructor
        · intro h
          cases h
        · rintro ⟨-, hne, hother⟩
          exact absurd (hother.eq_nil_iff.2 hkept) hne
      case accepted_iff => simpa [hname] using hkept
      case declared =>
        intro a h
        cases h
        exact hbuild (InterfaceOptions.declaredBy_interface hkept)
      case log =>
        rw [if_neg hname, List.map_map]
        rfl
    · have hbroken : ∃ rule ∈ Rule.all signature.arity options.secrets,
          rule.Broken options signature.arity := by
        by_contra h
        refine hgood (hissues.eq_nil_iff.2 ?_)
        intro rule hrule hbroken
        exact h ⟨rule, hrule, hbroken⟩
      rw [if_neg hgood, hlog]
      constructor
      case naming_iff => simp [hname]
      case validation_iff => simpa [hname] using hbroken
      case issues_iff =>
        intro issues
        constructor
        · intro h
          cases h
          exact ⟨hname, hgood, hissues⟩
        · rintro ⟨-, -, hother⟩
          rw [hissues.unique hother]
      case accepted_iff => simpa [hname] using hbroken
      case declared =>
        intro a h
        cases h
      case log =>
        rw [if_neg hname, List.map_map]
        rfl

theorem Task.declare_eq (signature : Signature) (options : TaskOptions) (scope : Scope)
    (container : Container) :
    Task.declare signature options scope container =
      signature.declare (options.findings signature.arity) (fun name => s!"task `{name}`")
        fun name => {
          id := scope.identifier .task name
          interface := options.interface.interface signature.arity
          container := {
            image := container.image
            args := container.arguments name
            inputPath := container.inputDir
            outputPath := container.outputDir }
          taskType := container.taskType
          cacheVersion := options.cacheVersion
          secrets := options.secrets } :=
  rfl

theorem TaskOptions.findings_interface (o : InterfaceOptions) (arity : Nat) :
    TaskOptions.findings { interface := o } arity = (o.issues arity).map .error := by
  simp [findings]

theorem WorkflowHeader.declare_eq (signature : Signature) (options : InterfaceOptions)
    (scope : Scope) :
    WorkflowHeader.declare signature options scope =
      signature.declare (TaskOptions.findings { interface := options } signature.arity)
        (fun name => s!"workflow `{name}`")
        fun name => ⟨scope.identifier .workflow name, options.interface signature.arity⟩ := by
  rw [TaskOptions.findings_interface]
  rfl

/-- Tasks and workflows are declared exactly when they have a name and no rule is broken; else all
    that is broken is reported. -/
theorem declarations_exact (signature : Signature) (scope : Scope) :
    (∀ (options : TaskOptions) (container : Container),
      Checked signature options ("task `" ++ Text.trim signature.name ++ "`")
        (fun task => task.DeclaredBy signature options scope container)
        (Task.declare signature options scope container).run) ∧
    ∀ options : InterfaceOptions,
      Checked signature { interface := options } ("workflow `" ++ Text.trim signature.name ++ "`")
        (fun header => header.DeclaredBy signature options scope)
        (WorkflowHeader.declare signature options scope).run := by
  constructor
  · intro options container
    rw [Task.declare_eq]
    refine Signature.checked_declare signature options (fun name => s!"task `{name}`") _ ?_
    intro hinterface
    exact ⟨rfl, rfl, rfl, hinterface⟩
  · intro options
    rw [WorkflowHeader.declare_eq]
    refine Signature.checked_declare signature { interface := options }
      (fun name => s!"workflow `{name}`") _ ?_
    intro hinterface
    exact ⟨rfl, rfl, hinterface⟩

end TaskGraph
