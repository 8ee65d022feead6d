import TaskGraph.Proofs.Files.Delivery
import TaskGraph.Proofs.Registry.EchoedTemplate

namespace TaskGraph

open Json (Number Value)

theorem MountKind.ofJson?_num (n : Number) : ofJson? (.num n) = none := rfl

theorem MountKind.ofJson?_name (kind : MountKind) : ofJson? (.str kind.name) = some kind := by
  cases kind <;> rfl

namespace Secret

/-- The fields of a secret, where `write` says how a mount kind is written. -/
def fields (s : Secret) (write : MountKind → Value) : List (String × Value) :=
  [("group", .str s.group)] ++
    (s.key.map fun key => ("key", .str key)).toList ++
    (s.mount.map fun mount => ("mount_requirement", write mount)).toList

variable {s : Secret} {write : MountKind → Value}

theorem toJson_eq (s : Secret) :
    s.toJson = .obj (s.fields fun mount => .num (.ofUInt64 mount.number)) := rfl

theorem record?_fields (s : Secret) (write : MountKind → Value) :
    (Value.obj (s.fields write)).record? ["group", "key", "mount_requirement"] =
      some [some (.str s.group), s.key.map .str, s.mount.map write] := by
  obtain ⟨group, key, mount⟩ := s
  cases key <;> cases mount <;> rfl

theorem optional?_str (key : Option String) :
    Value.optional? Value.str? (key.map .str) = some key := by
  cases key <;> rfl

theorem optional?_mount (hwrite : ∀ mount, write mount ≠ .null) (mount : MountKind) :
    Value.optional? MountKind.ofJson? (some (write mount)) =
      (MountKind.ofJson? (write mount)).map some := by
  cases hvalue : write mount with
  | null => exact absurd hvalue (hwrite mount)
  | _ => rfl

/-- Whether a secret is read depends on nothing but its mount kind. -/
theorem ofJson?_fields (s : Secret) (hwrite : ∀ mount, write mount ≠ .null) :
    ofJson? (.obj (s.fields write)) =
      match s.mount with
      | none => some s
      | some mount =>
        (MountKind.ofJson? (write mount)).map fun mount => { s with mount := some mount } := by
  rw [ofJson?, record?_fields]
  obtain ⟨group, key, mount⟩ := s
  cases mount with
  | none =>
    dsimp only [Option.bind_eq_bind, Option.bind_some, Option.map_none]
    rw [optional?_str]
    rfl
  | some mount =>
    dsimp only [Option.bind_eq_bind, Option.bind_some, Option.map_some]
    rw [optional?_str, optional?_mount hwrite]
    cases MountKind.ofJson? (write mount) <;> rfl

theorem ofJson?_toJson (s : Secret) :
    ofJson? s.toJson = if s.mount = none then some s else none := by
  have hnumber : ∀ mount : MountKind, Value.num (.ofUInt64 mount.number) ≠ .null := fun _ => nofun
  rw [toJson_eq, ofJson?_fields s hnumber]
  cases s.mount with
  | none => rfl
  | some mount => simp only [MountKind.ofJson?_num, Option.map_none, reduceCtorEq, if_false]

theorem ofJson?_named (s : Secret) :
    ofJson? (.obj (s.fields fun mount => .str mount.name)) = some s := by
  have hname : ∀ mount : MountKind, Value.str mount.name ≠ .null := fun _ => nofun
  rw [ofJson?_fields s hname]
  obtain ⟨group, key, mount⟩ := s
  cases mount with
  | none => rfl
  | some mount => simp only [MountKind.ofJson?_name, Option.map_some]

theorem canonical_toJson (s : Secret) : s.toJson.Canonical := by
  have hnames : List.Pairwise (· < ·) ["group", "key", "mount_requirement"] := by decide
  obtain ⟨group, key, mount⟩ := s
  refine .obj ?_ ?_
  · refine List.pairwise_map.1 (hnames.sublist ?_)
    cases key <;> cases mount <;> simp
  · intro f hf
    simp only [List.cons_append, List.nil_append, List.mem_cons, List.mem_append,
      Option.mem_toList, Option.map_eq_some_iff] at hf
    rcases hf with rfl | ⟨_, _, rfl⟩ | ⟨_, _, rfl⟩
    · exact .str _
    · exact .str _
    · exact .num _

/-- The text of a secret is read as the document that it was made from. -/
theorem parse?_text (s : Secret) : Value.parse? s.text = some s.toJson := by
  refine Value.parse?_render s.canonical_toJson ?_ (Value.readsBack_of_floats ?_)
  · obtain ⟨group, key, mount⟩ := s
    cases key <;> cases mount <;> exact Nat.le_of_ble_eq_true rfl
  · intro x hx
    obtain ⟨group, key, mount⟩ := s
    cases key <;> cases mount <;>
      simp [toJson, Value.tokens, Json.moreFields, Number.ofUInt64] at hx

theorem at?_toWire_secrets {t : Task} (h : t.secrets ≠ []) :
    t.toWire.at? ["spec", "template", "security_context", "secrets"] =
      some (.arr (t.secrets.map toJson)) := by
  have hcontext : t.template.get? "security_context" =
      some (.obj [("secrets", .arr (t.secrets.map toJson))]) := by
    apply Value.get?_ofFields t.templateFields_nodup
    rw [Task.templateFields, if_neg (by simpa using h)]
    exact List.mem_append_right _ List.mem_cons_self
  have htemplate : t.toWire.at? ["spec", "template", "security_context", "secrets"] =
      t.template.at? ["security_context", "secrets"] := rfl
  rw [htemplate, Value.at?_cons, hcontext]
  rfl

/-- A secret is read back from its document, and from the text of that, exactly when it has no mount
    kind, and with a mount kind nothing is read. So of the secrets in the document of a task those
    without a mount kind are read back. With the name of the mount kind in the place of its number
    every secret would be. -/
theorem echoed_iff_unmounted (s : Secret) :
    (ofJson? s.toJson = some s ↔ s.mount = none) ∧
    (s.mount ≠ none → ofJson? s.toJson = none) ∧
    ((Value.parse? s.text).bind ofJson? = some s ↔ s.mount = none) ∧
    ofJson? (.obj (s.fields fun mount => .str mount.name)) = some s ∧
    ∀ task : Task, s ∈ task.secrets → ∃ entries,
      task.toWire.at? ["spec", "template", "security_context", "secrets"] = some (.arr entries) ∧
      List.Forall₂ (fun secret entry => ofJson? entry = some secret ↔ secret.mount = none)
        task.secrets entries := by
  have hread : ∀ secret, ofJson? (toJson secret) = some secret ↔ secret.mount = none := by
    intro secret
    rw [ofJson?_toJson]
    split <;> simp_all
  refine ⟨hread s, ?_, ?_, s.ofJson?_named, ?_⟩
  · intro hmount
    rw [ofJson?_toJson, if_neg hmount]
  · rw [parse?_text, Option.bind_some]
    exact hread s
  · intro task hmem
    refine ⟨_, at?_toWire_secrets (List.ne_nil_of_mem hmem), ?_⟩
    rw [List.forall₂_map_right_iff, List.forall₂_same]
    exact fun secret _ => hread secret

/-- A secret that has to be in a file, as it is written and what is read of it. -/
theorem filed_not_echoed :
    let filed : Secret := ⟨"g", none, some .file⟩
    (∃ h, filed.toJson = .obj [("group", .str "g"), ("mount_requirement", .num (.int 2 h))]) ∧
      ofJson? filed.toJson = none :=
  ⟨⟨by decide, rfl⟩, rfl⟩

end Secret

end TaskGraph
