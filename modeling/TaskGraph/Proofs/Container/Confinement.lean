import TaskGraph.Proofs.Container.TaskRun
import TaskGraph.Proofs.Declaration.Acceptance
import TaskGraph.Proofs.Files.Joining

namespace TaskGraph

open Json (Value)

namespace FileTree

variable {t t' : FileTree} {dir part path text : String} {place : Place}

/-- The place of the file that is opened to read a path. -/
def Opens (t : FileTree) (path : String) (place : Place) : Prop :=
  t.LeadsTo path place ∧ ∃ contents, t.readBytes path = .ok contents

theorem LeadsTo.unique {p q : Place} (hp : t.LeadsTo path p) (hq : t.LeadsTo path q) : p = q :=
  Except.ok.inj (hp.symm.trans hq)

/-- What was read was opened somewhere. -/
theorem exists_opens (h : t.readText path = .ok text) : ∃ place, t.Opens path place := by
  unfold readText at h
  obtain ⟨contents, hbytes, -⟩ := bind_eq_ok_iff.1 h
  have hread := hbytes
  unfold readBytes at hread
  obtain ⟨⟨⟩, -, hread⟩ := bind_eq_ok_iff.1 hread
  obtain ⟨place, hwalk, -⟩ := bind_eq_ok_iff.1 hread
  exact ⟨place, hwalk, contents, hbytes⟩

theorem inside_of_opens (hpart : Path.IsEntry part) (h : t.Opens (Path.join dir part) place) :
    t.Inside dir place := by
  obtain ⟨habsolute, name, hup, hmoves⟩ := hpart
  obtain ⟨d, hdir, hplace⟩ := leadsTo_join habsolute hup hmoves h.1
  exact ⟨d, name, hdir, hplace⟩

/-- Parts that lead to different names do not lead to one place. -/
theorem ne_of_opens {part' : String} {p q : Place} (hpart : Path.IsEntry part)
    (hpart' : Path.IsEntry part') (hne : Path.moves part ≠ Path.moves part')
    (hp : t.Opens (Path.join dir part) p) (hq : t.Opens (Path.join dir part') q) : p ≠ q := by
  obtain ⟨habsolute, name, hup, hmoves⟩ := hpart
  obtain ⟨habsolute', name', hup', hmoves'⟩ := hpart'
  obtain ⟨d, hdir, rfl⟩ := leadsTo_join habsolute hup hmoves hp.1
  obtain ⟨d', hdir', rfl⟩ := leadsTo_join habsolute' hup' hmoves' hq.1
  obtain rfl := hdir.unique hdir'
  intro heq
  obtain rfl : name = name' := by simpa using heq
  exact hne (hmoves.trans hmoves'.symm)

/-- Writing to such a part changes nothing but an entry of the directory. -/
theorem inside_of_written (hpart : Path.IsEntry part)
    (h : t.Written (Path.join dir part) text t') (hchanged : t'.node? place ≠ t.node? place) :
    t.Inside dir place := by
  obtain ⟨habsolute, name, -, hmoves⟩ := hpart
  obtain ⟨written, hwritten, hnode⟩ := h.node?_eq
  obtain ⟨d, hdir, hplace⟩ := placeForFile_join habsolute hmoves hwritten
  rw [hnode] at hchanged
  split at hchanged
  · next heq => exact ⟨d, name, hdir, heq.trans hplace⟩
  · exact absurd rfl hchanged

end FileTree

namespace Interface

/-- Whether the paths of all inputs lead right into one directory, no two of them the same way, and
    the path of the output right into another. -/
structure Confined (i : Interface) (inputDir outputDir : String) : Prop where
  inputs_in : ∀ input ∈ i.inputs, Path.LiesIn (Path.join inputDir input.name) inputDir
  inputs_apart : i.inputs.Pairwise fun a b =>
    ¬Path.SameWay (Path.join inputDir a.name) (Path.join inputDir b.name)
  output_in : Path.LiesIn (Path.join outputDir i.output.name) outputDir

/-- Whether each name leads to one entry of a directory, and no two inputs to the same one. -/
structure NamesEntries (i : Interface) : Prop where
  inputs_entry : ∀ input ∈ i.inputs, Path.IsEntry input.name
  inputs_apart : i.inputs.Pairwise fun a b => Path.moves a.name ≠ Path.moves b.name
  output_entry : Path.IsEntry i.output.name

/-- Whether a run stays in its directories: what is opened for the inputs, and has been for all of
    them when the body is run, are different files right in the one, and all that has changed is
    right in the other. -/
structure Contained (i : Interface) (inputDir outputDir : String) (before after : Workspace) :
    Prop where
  inputs_opened : ∀ values, after.runs = before.runs ++ [values] → ∀ input ∈ i.inputs,
    ∃ place, before.files.Opens (Path.join inputDir input.name) place
  inputs_in : ∀ input ∈ i.inputs, ∀ place,
    before.files.Opens (Path.join inputDir input.name) place → before.files.Inside inputDir place
  inputs_apart : i.inputs.Pairwise fun a b => ∀ p q,
    before.files.Opens (Path.join inputDir a.name) p →
      before.files.Opens (Path.join inputDir b.name) q → p ≠ q
  output_in : ∀ place, after.files.node? place ≠ before.files.node? place →
    before.files.Inside outputDir place

variable {i : Interface}

/-- Paths stay in whatever directories there are exactly when the names lead to entries. -/
theorem confined_iff : (∀ inputDir outputDir, i.Confined inputDir outputDir) ↔ i.NamesEntries := by
  constructor
  · intro h
    have hinputs : ∀ input ∈ i.inputs, Path.IsEntry input.name := fun input hinput =>
      Path.liesIn_join_iff.1 fun dir => (h dir dir).inputs_in input hinput
    refine ⟨hinputs, ?_, Path.liesIn_join_iff.1 fun dir => (h dir dir).output_in⟩
    refine (h "" "").inputs_apart.imp_of_mem ?_
    intro a b ha hb hapart
    rwa [Path.sameWay_join_iff (hinputs a ha).1 (hinputs b hb).1] at hapart
  · intro h inputDir outputDir
    refine ⟨fun input hinput => Path.liesIn_join_iff.2 (h.inputs_entry input hinput) inputDir, ?_,
      Path.liesIn_join_iff.2 h.output_entry outputDir⟩
    refine h.inputs_apart.imp_of_mem ?_
    intro a b ha hb hapart
    rwa [Path.sameWay_join_iff (h.inputs_entry a ha).1 (h.inputs_entry b hb).1]

variable {registry : Registry} {name inputDir outputDir : String} {before : Workspace}

/-- What is opened and changed when a task is run whose names lead to entries. -/
theorem contained_of_namesEntries {registered : RegisteredTask}
    (h : registered.task.interface.NamesEntries) (htask : registry.task? name = some registered) :
    registered.task.interface.Contained inputDir outputDir before
      ((registry.execute name inputDir outputDir).runFrom before).value.2 := by
  have hrun := registry.execution name inputDir outputDir before
  refine ⟨?_, ?_, ?_, ?_⟩
  · intro values hruns input hinput
    obtain ⟨found, hsupplied⟩ := (hrun.runs_eq_iff values).1 hruns
    obtain rfl := Option.some.inj (htask.symm.trans hsupplied.task?_eq)
    obtain ⟨value, -, raw, hraw, -⟩ := exists_of_forall₂_left hsupplied.holds hinput
    exact FileTree.exists_opens hraw
  · intro input hinput place hopens
    exact FileTree.inside_of_opens (h.inputs_entry input hinput) hopens
  · refine h.inputs_apart.imp_of_mem ?_
    intro a b ha hb hapart p q hp hq
    exact FileTree.ne_of_opens (h.inputs_entry a ha) (h.inputs_entry b hb) hapart hp hq
  · intro place hchanged
    cases hresult : ((registry.execute name inputDir outputDir).runFrom before).value.1 with
    | error e =>
      rw [hrun.files_of_error hresult] at hchanged
      exact absurd rfl hchanged
    | ok result =>
      obtain ⟨found, hfound, -, hwritten⟩ := hrun.files_of_ok hresult
      obtain rfl := Option.some.inj (htask.symm.trans hfound)
      exact FileTree.inside_of_written h.output_entry hwritten hchanged

end Interface

namespace InterfaceOptions

/-- There is nothing wrong with names that can be listed, wherever they lead. -/
theorem issues_eq_nil_of_names (names : List String) (output : String)
    (hcomma : ∀ name ∈ names, ',' ∉ name.toList) (hempty : "" ∉ names) (hnodup : names.Nodup)
    (houtput : ¬Text.isBlank output) :
    issues { paramNames := some names, outputName := some output } names.length = [] := by
  have hcommas : ¬names.any fun n => n.contains ',' := by
    rw [any_contains_comma_iff]
    rintro ⟨name, hname, hmem⟩
    exact hcomma name hname hmem
  have hnames : nameIssues names.length names = [] := by
    rw [nameIssues, if_pos rfl, if_neg hcommas, if_neg (any_isEmpty_iff.not.2 hempty),
      if_pos hnodup]
    rfl
  have hnone : outputNameIssues { paramNames := some names, outputName := some output } = [] :=
    if_neg houtput
  rw [issues, Option.map_some, Option.getD_some, hnames, hnone]
  simp [inputSpec?, typeIssues]

theorem output_ne_empty (o : InterfaceOptions) (arity : Nat) :
    (o.interface arity).output.name ≠ "" := by
  show o.outputNameOrDefault ≠ ""
  unfold outputNameOrDefault
  split
  · split
    · decide
    · next hblank =>
      rintro rfl
      exact hblank rfl
  · decide

end InterfaceOptions

namespace Task

variable {signature : Signature} {options : TaskOptions} {scope : Scope} {container : Container}
  {task : Task}

/-- The names of an accepted task lead to entries when they are plain. -/
theorem namesEntries_of_plain
    (h : (Task.declare signature options scope container).run.value = .ok task)
    (hinputs : ∀ input ∈ task.interface.inputs, Path.IsPlain input.name)
    (houtput : Path.IsPlain task.interface.output.name) : task.interface.NamesEntries := by
  obtain ⟨-, hinterface, -⟩ := Task.declare_eq_ok h
  have hlistable := Task.listable_of_declare h
  have hnonempty : ∀ input ∈ task.interface.inputs, input.name ≠ "" := fun input hinput =>
    hlistable.nonempty _ (List.mem_map_of_mem hinput)
  have hout : task.interface.output.name ≠ "" := by
    rw [hinterface]
    exact options.interface.output_ne_empty signature.arity
  refine ⟨fun input hinput => (hinputs input hinput).isEntry (hnonempty input hinput), ?_,
    houtput.isEntry hout⟩
  refine (List.pairwise_map.1 hlistable.nodup).imp_of_mem ?_
  intro a b ha hb hne
  rw [(hinputs a ha).moves_eq (hnonempty a ha), (hinputs b hb).moves_eq (hnonempty b hb)]
  exact fun heq => hne (List.cons.inj heq).1

/-- When the files of an accepted task stay in its directories. The paths of its inputs are
    different ways right into the input directory, and the path of its output leads right into the
    output directory, in whatever directories it is run, exactly when each of the names leads to one
    entry and no two inputs to the same one; names that are plain do. A run of such a task opens
    different files right in the input directory, and changes nothing but a file right in the output
    directory. -/
theorem confined_iff_namesEntries
    (h : (Task.declare signature options scope container).run.value = .ok task) :
    ((∀ inputDir outputDir, task.interface.Confined inputDir outputDir) ↔
      task.interface.NamesEntries) ∧
    ((∀ input ∈ task.interface.inputs, Path.IsPlain input.name) →
      Path.IsPlain task.interface.output.name → task.interface.NamesEntries) ∧
    (task.interface.NamesEntries → ∀ (registry : Registry) (body : TaskBody)
      (name inputDir outputDir : String) (before : Workspace),
      registry.task? name = some ⟨task, body⟩ →
      task.interface.Contained inputDir outputDir before
        ((registry.execute name inputDir outputDir).runFrom before).value.2) := by
  refine ⟨Interface.confined_iff, namesEntries_of_plain h, ?_⟩
  intro hnames registry body name inputDir outputDir before htask
  have hregistered : (RegisteredTask.mk task body).task.interface.NamesEntries := hnames
  exact Interface.contained_of_namesEntries hregistered htask

theorem confined_pair :
    ∃ task : Task, (Task.declare ⟨"pair", 2⟩ {} ⟨"p", "d", "v"⟩ {}).run.value = .ok task ∧
      task.interface.Confined "/in" "/out" ∧
      ∀ body before, task.interface.Contained "/in" "/out" before
        ((Registry.execute ⟨[⟨task, body⟩], []⟩ task.name "/in" "/out").runFrom
          before).value.2 := by
  obtain ⟨task, h⟩ : ∃ task : Task,
      (Task.declare ⟨"pair", 2⟩ {} ⟨"p", "d", "v"⟩ {}).run.value = .ok task := by
    apply Exists.intro
    rfl
  have hinterface : task.interface =
      ⟨[⟨"input0", .untyped⟩, ⟨"input1", .untyped⟩], ⟨"output0", .untyped⟩⟩ :=
    (Task.declare_eq_ok h).2.1
  obtain ⟨hconfined, hplain, hcontained⟩ := Task.confined_iff_namesEntries h
  have hnames : task.interface.NamesEntries := by
    refine hplain ?_ ?_
    · rw [hinterface]
      decide
    · rw [hinterface]
      decide
  refine ⟨task, h, hconfined.2 hnames "/in" "/out", ?_⟩
  intro body before
  have htask : Registry.task? ⟨[⟨task, body⟩], []⟩ task.name = some ⟨task, body⟩ :=
    List.find?_cons_of_pos (beq_self_eq_true task.name)
  exact hcontained hnames _ body task.name "/in" "/out" before htask

/-- Directories for inputs and outputs, one file in the first and one beside it. -/
def besideTree : FileTree where
  entries := [(["in"], .directory), (["in", "x"], .file "1".toUTF8), (["key"], .file "7".toUTF8),
    (["out"], .directory)]
  current := []

/-- The work of a task that hands back all its inputs. -/
def gathering : TaskBody := ⟨.sync, fun inputs => .ok (.arr inputs)⟩

/-- An accepted task that opens one file for two of its inputs, another one beside the input
    directory, and writes to a file beside the output directory. -/
theorem gather_not_contained :
    ∃ task : Task,
      (Task.declare ⟨"gather", 3⟩
        { interface := { paramNames := some ["x", "./x", "/key"], outputName := some "../in/y" } }
        ⟨"p", "d", "v"⟩ {}).run.value = .ok task ∧
      besideTree.Opens (Path.join "/in" "x") ["in", "x"] ∧
      besideTree.Opens (Path.join "/in" "./x") ["in", "x"] ∧
      besideTree.Opens (Path.join "/in" "/key") ["key"] ∧ ¬besideTree.Inside "/in" ["key"] ∧
      ((Registry.execute ⟨[⟨task, gathering⟩], []⟩ "gather" "/in" "/out").runFrom
        ⟨besideTree, []⟩).value.2.files.node? ["in", "y"] = some (.file "[1,1,7]".toUTF8) ∧
      besideTree.node? ["in", "y"] = none ∧ ¬besideTree.Inside "/out" ["in", "y"] := by
  have hissues := InterfaceOptions.issues_eq_nil_of_names ["x", "./x", "/key"] "../in/y"
    (by decide) (by decide) (by decide) (by decide)
  rw [Task.declare_eq, TaskOptions.findings_interface, Signature.run_declare_of_named (by decide),
    show (⟨"gather", 3⟩ : Signature).arity = ["x", "./x", "/key"].length from rfl, hissues]
  refine ⟨_, rfl, ⟨rfl, _, rfl⟩, ⟨rfl, _, rfl⟩, ⟨rfl, _, rfl⟩, ?_, rfl, rfl, ?_⟩
  · rintro ⟨parent, name, hparent, hplace⟩
    obtain rfl : ["in"] = parent := Except.ok.inj hparent
    exact absurd (List.cons.inj hplace).1 (by decide)
  · rintro ⟨parent, name, hparent, hplace⟩
    obtain rfl : ["out"] = parent := Except.ok.inj hparent
    exact absurd (List.cons.inj hplace).1 (by decide)

end Task

end TaskGraph
