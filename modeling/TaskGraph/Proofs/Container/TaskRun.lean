import TaskGraph.Container.TaskRun
import TaskGraph.Proofs.Files.RoundTrip
import TaskGraph.Proofs.Files.Writing

namespace TaskGraph

open Json (Value)
open Routine

/-- A value that the file of an input holds. -/
def Variable.Holds (files : FileTree) (inputDir : String) (input : Variable) (value : Value) :
    Prop :=
  ∃ raw, files.readText (Path.join inputDir input.name) = .ok raw ∧ input.type.Reads raw value

theorem readInputs_eq_ok_iff {files : FileTree} {inputDir : String} {inputs : List Variable}
    {values : List Value} : readInputs files inputDir inputs = .ok values ↔
      List.Forall₂ (Variable.Holds files inputDir) inputs values := by
  induction inputs generalizing values with
  | nil =>
    rw [readInputs, List.forall₂_nil_left_iff]
    constructor
    · intro h
      exact (Except.ok.inj h).symm
    · rintro rfl
      rfl
  | cons input inputs ih =>
    rw [readInputs, List.forall₂_cons_left_iff]
    simp only [bind_eq_ok_iff, mapError_eq_ok_iff, DeclaredType.decode_eq_ok_iff, ih]
    constructor
    · rintro ⟨raw, hraw, value, hvalue, rest, hrest, h⟩
      exact ⟨value, rest, ⟨raw, hraw, hvalue⟩, hrest, (Except.ok.inj h).symm⟩
    · rintro ⟨value, rest, ⟨raw, hraw, hvalue⟩, hrest, rfl⟩
      exact ⟨raw, hraw, value, hvalue, rest, hrest, rfl⟩

/-- Every value that is good for an output can be handed to the write. -/
theorem writeOutput_eq_ok_iff {files files' : FileTree} {output : Variable} {value : Value}
    {outputDir : String} : writeOutput files output value outputDir = .ok files' ↔
      output.type.validate value = .ok () ∧
        files.writeText (Path.join outputDir output.name) (output.type.contents value) =
          .ok files' := by
  unfold writeOutput
  simp only [bind_eq_ok_iff, mapError_eq_ok_iff, DeclaredType.encode_eq_ok_iff]
  constructor
  · rintro ⟨_, ⟨hvalid, rfl⟩, hwritten⟩
    exact ⟨hvalid, hwritten⟩
  · rintro ⟨hvalid, hwritten⟩
    exact ⟨_, ⟨hvalid, rfl⟩, hwritten⟩

/-- The ways in which a run ends: before the body was run, after it failed, and after the result
    could or could not be written. -/
inductive Registry.Execution (registry : Registry) (name inputDir outputDir : String)
    (before : Workspace) : Except Error Value × Workspace → Prop where
  | unregistered :
      registry.task? name = none →
      Execution registry name inputDir outputDir before
        (.error (.runtime (.unknownTask name)), before)
  | unread {registered : RegisteredTask} {e : Error} :
      registry.task? name = some registered →
      readInputs before.files inputDir registered.task.interface.inputs = .error e →
      Execution registry name inputDir outputDir before (.error e, before)
  | raised {registered : RegisteredTask} {inputs : List Value} {e : Error} :
      registry.task? name = some registered →
      readInputs before.files inputDir registered.task.interface.inputs = .ok inputs →
      registered.body.run inputs = .error e →
      Execution registry name inputDir outputDir before
        (.error e, ⟨before.files, before.runs ++ [inputs]⟩)
  | unwritten {registered : RegisteredTask} {inputs : List Value} {result : Value} {e : Error} :
      registry.task? name = some registered →
      readInputs before.files inputDir registered.task.interface.inputs = .ok inputs →
      registered.body.run inputs = .ok result →
      writeOutput before.files registered.task.interface.output result outputDir = .error e →
      Execution registry name inputDir outputDir before
        (.error e, ⟨before.files, before.runs ++ [inputs]⟩)
  | written {registered : RegisteredTask} {inputs : List Value} {result : Value}
      {files : FileTree} :
      registry.task? name = some registered →
      readInputs before.files inputDir registered.task.interface.inputs = .ok inputs →
      registered.body.run inputs = .ok result →
      writeOutput before.files registered.task.interface.output result outputDir = .ok files →
      Execution registry name inputDir outputDir before
        (.ok result, ⟨files, before.runs ++ [inputs]⟩)

theorem TaskBody.value_runFrom_invoke (body : TaskBody) (inputs : List Value) (w : Workspace) :
    ((body.invoke inputs).runFrom w).value =
      (body.run inputs, ⟨w.files, w.runs ++ [inputs]⟩) := rfl

/-- A run ends in one of these ways. -/
theorem Registry.execution (registry : Registry) (name inputDir outputDir : String)
    (before : Workspace) : Execution registry name inputDir outputDir before
      ((registry.execute name inputDir outputDir).runFrom before).value := by
  unfold execute
  cases htask : registry.task? name with
  | none => exact .unregistered htask
  | some registered =>
    dsimp only
    rw [runFrom_bind, runFrom_get, pure_bind]
    dsimp only
    rw [runFrom_bind, runFrom_ofExcept, pure_bind]
    cases hread : readInputs before.files inputDir registered.task.interface.inputs with
    | error e => exact .unread htask hread
    | ok inputs =>
      dsimp only
      rw [runFrom_bind, Logged.value_bind, value_runFrom_log]
      dsimp only
      rw [runFrom_bind, Logged.value_bind, TaskBody.value_runFrom_invoke]
      cases hbody : registered.body.run inputs with
      | error e => exact .raised htask hread hbody
      | ok result =>
        dsimp only
        rw [runFrom_bind, runFrom_get, pure_bind]
        dsimp only
        rw [runFrom_bind, runFrom_ofExcept, pure_bind]
        cases hwrite : writeOutput before.files registered.task.interface.output result
            outputDir with
        | error e => exact .unwritten htask hread hbody hwrite
        | ok files => exact .written htask hread hbody hwrite

namespace Registry

variable {registry : Registry} {name inputDir outputDir : String}

/-- The task of a name, with values that the files of all its inputs hold, in their order. -/
structure Supplied (registry : Registry) (name inputDir : String) (files : FileTree)
    (registered : RegisteredTask) (inputs : List Value) : Prop where
  task?_eq : registry.task? name = some registered
  holds : List.Forall₂ (Variable.Holds files inputDir) registered.task.interface.inputs inputs

theorem Supplied.unique {files : FileTree} {registered registered' : RegisteredTask}
    {inputs inputs' : List Value}
    (h : registry.Supplied name inputDir files registered inputs)
    (h' : registry.Supplied name inputDir files registered' inputs') :
    registered = registered' ∧ inputs = inputs' := by
  have htask : registered = registered' := Option.some.inj (h.task?_eq.symm.trans h'.task?_eq)
  subst htask
  have hread := readInputs_eq_ok_iff.2 h.holds
  rw [readInputs_eq_ok_iff.2 h'.holds] at hread
  exact ⟨rfl, (Except.ok.inj hread).symm⟩

variable {before : Workspace} {reached : Except Error Value × Workspace}

/-- The body is run on the values of the inputs, or there are no such values and nothing happens. -/
theorem Execution.runs_cases (h : registry.Execution name inputDir outputDir before reached) :
    (∃ registered inputs, registry.Supplied name inputDir before.files registered inputs ∧
      reached.2.runs = before.runs ++ [inputs]) ∨
    (∀ registered inputs, ¬registry.Supplied name inputDir before.files registered inputs) ∧
      reached.2 = before := by
  cases h with
  | unregistered htask =>
    refine .inr ⟨?_, rfl⟩
    intro registered inputs hsupplied
    rw [hsupplied.task?_eq] at htask
    cases htask
  | unread htask hread =>
    refine .inr ⟨?_, rfl⟩
    intro registered inputs hsupplied
    rw [hsupplied.task?_eq] at htask
    obtain rfl := Option.some.inj htask
    rw [readInputs_eq_ok_iff.2 hsupplied.holds] at hread
    cases hread
  | raised htask hread _ | unwritten htask hread _ _ | written htask hread _ _ =>
    exact .inl ⟨_, _, ⟨htask, readInputs_eq_ok_iff.1 hread⟩, rfl⟩

/-- The body is run on these inputs when they are what the files hold. -/
theorem Execution.runs_eq_iff (h : registry.Execution name inputDir outputDir before reached)
    (inputs : List Value) : reached.2.runs = before.runs ++ [inputs] ↔
      ∃ registered, registry.Supplied name inputDir before.files registered inputs := by
  rcases h.runs_cases with ⟨registered, given, hsupplied, hruns⟩ | ⟨hnone, hsame⟩
  · rw [hruns]
    constructor
    · intro heq
      obtain rfl : given = inputs := by simpa using heq
      exact ⟨registered, hsupplied⟩
    · rintro ⟨registered', hsupplied'⟩
      rw [(hsupplied.unique hsupplied').2]
  · rw [hsame]
    constructor
    · intro heq
      simp at heq
    · rintro ⟨registered, hsupplied⟩
      exact absurd hsupplied (hnone registered inputs)

/-- A run succeeds with what the body made of the inputs, once that was written. -/
theorem Execution.eq_ok_iff (h : registry.Execution name inputDir outputDir before reached)
    {result : Value} : reached.1 = .ok result ↔ ∃ registered inputs,
      registry.Supplied name inputDir before.files registered inputs ∧
      registered.body.run inputs = .ok result ∧
      ∃ files, writeOutput before.files registered.task.interface.output result outputDir =
        .ok files := by
  constructor
  · intro hok
    cases h with
    | written htask hread hbody hwrite =>
      obtain rfl := Except.ok.inj hok
      exact ⟨_, _, ⟨htask, readInputs_eq_ok_iff.1 hread⟩, hbody, _, hwrite⟩
    | unregistered | unread | raised | unwritten => cases hok
  · rintro ⟨registered, inputs, hsupplied, hbody, files, hwrite⟩
    have htask := hsupplied.task?_eq
    have hread := readInputs_eq_ok_iff.2 hsupplied.holds
    cases h <;> simp_all

/-- After a success the file of the output is all that has changed. -/
theorem Execution.files_of_ok (h : registry.Execution name inputDir outputDir before reached)
    {result : Value} (hok : reached.1 = .ok result) :
    ∃ registered, registry.task? name = some registered ∧
      registered.task.interface.output.type.encode result =
        .ok (registered.task.interface.output.type.contents result) ∧
      before.files.Written (Path.join outputDir registered.task.interface.output.name)
        (registered.task.interface.output.type.contents result) reached.2.files := by
  cases h with
  | written htask _ _ hwrite =>
    obtain rfl := Except.ok.inj hok
    obtain ⟨hvalid, hwritten⟩ := writeOutput_eq_ok_iff.1 hwrite
    exact ⟨_, htask, DeclaredType.encode_eq_ok_iff.2 ⟨hvalid, rfl⟩,
      FileTree.written_of_writeText hwritten⟩
  | unregistered | unread | raised | unwritten => cases hok

/-- After a failure no file has changed. -/
theorem Execution.files_of_error (h : registry.Execution name inputDir outputDir before reached)
    {e : Error} (herror : reached.1 = .error e) : reached.2.files = before.files := by
  cases h with
  | written => cases herror
  | unregistered | unread | raised | unwritten => rfl

theorem exists_supplied_iff {files : FileTree} :
    (∃ registered inputs, registry.Supplied name inputDir files registered inputs) ↔
      ∃ registered, registry.task? name = some registered ∧
        ∀ input ∈ registered.task.interface.inputs, ∃ value, input.Holds files inputDir value := by
  constructor
  · rintro ⟨registered, inputs, hsupplied⟩
    refine ⟨registered, hsupplied.task?_eq, ?_⟩
    intro input hinput
    obtain ⟨value, -, hvalue⟩ := exists_of_forall₂_left hsupplied.holds hinput
    exact ⟨value, hvalue⟩
  · rintro ⟨registered, htask, hinputs⟩
    obtain ⟨inputs, hholds⟩ := exists_forall₂ hinputs
    exact ⟨registered, inputs, htask, hholds⟩

/-- Running a task is all or nothing. Its body is run at most once, and it is run exactly when the
    task is registered and the file of every input holds a value of its type; it is then given these
    values, in the order of the inputs. The run succeeds with what the body returns exactly when
    this is good for the output and its contents can be written, and the file of the output, with
    these contents, is then all that has changed. After a failure no file has. -/
theorem execute_all_or_nothing (registry : Registry) (name inputDir outputDir : String)
    (before : Workspace) :
    let reached := ((registry.execute name inputDir outputDir).runFrom before).value
    (reached.2.runs = before.runs ∨ ∃ inputs, reached.2.runs = before.runs ++ [inputs]) ∧
    ((∃ inputs, reached.2.runs = before.runs ++ [inputs]) ↔
      ∃ registered, registry.task? name = some registered ∧
        ∀ input ∈ registered.task.interface.inputs,
          ∃ value, input.Holds before.files inputDir value) ∧
    (∀ inputs, reached.2.runs = before.runs ++ [inputs] →
      ∃ registered, registry.task? name = some registered ∧
        List.Forall₂ (fun input value => input.Holds before.files inputDir value ∧
          input.type.validate value = .ok ()) registered.task.interface.inputs inputs) ∧
    (∀ result, reached.1 = .ok result ↔
      ∃ registered inputs files, registry.task? name = some registered ∧
        reached.2.runs = before.runs ++ [inputs] ∧ registered.body.run inputs = .ok result ∧
        registered.task.interface.output.type.validate result = .ok () ∧
        before.files.writeText (Path.join outputDir registered.task.interface.output.name)
          (registered.task.interface.output.type.contents result) = .ok files) ∧
    (∀ result, reached.1 = .ok result →
      ∃ registered, registry.task? name = some registered ∧
        registered.task.interface.output.type.encode result =
          .ok (registered.task.interface.output.type.contents result) ∧
        before.files.Written (Path.join outputDir registered.task.interface.output.name)
          (registered.task.interface.output.type.contents result) reached.2.files) ∧
    ∀ e, reached.1 = .error e → reached.2.files = before.files := by
  intro reached
  have hrun : registry.Execution name inputDir outputDir before reached :=
    registry.execution name inputDir outputDir before
  have hinvoked := hrun.runs_eq_iff
  refine ⟨?_, ?_, ?_, ?_, ?_, ?_⟩
  · rcases hrun.runs_cases with ⟨-, given, -, hruns⟩ | ⟨-, hsame⟩
    · exact .inr ⟨given, hruns⟩
    · exact .inl (congrArg (·.runs) hsame)
  · rw [← exists_supplied_iff, exists_comm]
    exact exists_congr hinvoked
  · intro inputs hruns
    obtain ⟨registered, htask, hholds⟩ := (hinvoked inputs).1 hruns
    refine ⟨registered, htask, hholds.imp ?_⟩
    rintro input value ⟨raw, hraw, hreads⟩
    exact ⟨⟨raw, hraw, hreads⟩, DeclaredType.validate_eq_ok_iff.2 hreads.accepts⟩
  · intro result
    rw [hrun.eq_ok_iff]
    constructor
    · rintro ⟨registered, inputs, hsupplied, hbody, files, hwrite⟩
      obtain ⟨hvalid, hwritten⟩ := writeOutput_eq_ok_iff.1 hwrite
      exact ⟨registered, inputs, files, hsupplied.task?_eq,
        (hinvoked inputs).2 ⟨registered, hsupplied⟩, hbody, hvalid, hwritten⟩
    · rintro ⟨registered, inputs, files, htask, hruns, hbody, hvalid, hwritten⟩
      obtain ⟨registered', hsupplied⟩ := (hinvoked inputs).1 hruns
      obtain rfl := Option.some.inj (hsupplied.task?_eq.symm.trans htask)
      exact ⟨_, inputs, hsupplied, hbody, files,
        writeOutput_eq_ok_iff.2 ⟨hvalid, hwritten⟩⟩
  · exact fun _ => hrun.files_of_ok
  · exact fun _ => hrun.files_of_error

end Registry

end TaskGraph
