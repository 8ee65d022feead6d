import TaskGraph.Proofs.Files.Delivery
import TaskGraph.Proofs.Trace.Isolation

namespace TaskGraph

open Json (Number Value)

variable {σ : Type}

/-- The wire primitives of a declared type. What is untyped travels as a string. -/
inductive DeclaredType.Primitive : DeclaredType → Value → Prop
  | float (n : Number) : Primitive (.typed .float) (.obj [("float_value", .num n)])
  | text (s : String) : Primitive (.typed .text) (.obj [("string_value", .str s)])
  | boolean (b : Bool) : Primitive (.typed .boolean) (.obj [("boolean", .bool b)])
  | integer {i : Int} (h : Json.fits64 i) : Number.isInt64 i →
      Primitive (.typed .integer) (.obj [("integer", .num (.int i h))])
  | untyped (s : String) : Primitive .untyped (.obj [("string_value", .str s)])

/-- A value is written as a primitive of a literal type exactly when it is of the type. -/
theorem LiteralType.primitive_iff {t : LiteralType} {v : Value} :
    (DeclaredType.typed t).Primitive (t.primitive v) ↔ t.accepts v := by
  constructor
  · intro h
    cases t with
    | float => cases h with | float n => rfl
    | text => cases h with | text s => rfl
    | boolean => cases h with | boolean b => rfl
    | integer =>
      cases v with
      | num n =>
        cases hn : n.toInt64? with
        | some i => exact Option.isSome_iff_exists.2 ⟨i, hn⟩
        | none =>
          rw [primitive, hn] at h
          cases h with | integer _ hsigned =>
          rw [Number.toInt64?_int hsigned] at hn
          cases hn
      | _ => cases h
  · intro h
    cases t with
    | float => cases v with | num n => exact .float n | _ => cases h
    | text => cases v with | str s => exact .text s | _ => cases h
    | boolean => cases v with | bool b => exact .boolean b | _ => cases h
    | integer =>
      cases v with
      | num n =>
        obtain ⟨i, hi⟩ := Option.isSome_iff_exists.1 h
        have hsigned := Number.isInt64_of_toInt64? hi
        have hfits := Number.fits64_of_isInt64 hsigned
        rw [primitive_integer hi hfits]
        exact .integer hfits hsigned
      | _ => cases h

namespace Binding

/-- Whether a constant passes the check of the type that it carries. -/
def WellTyped : Binding → Prop
  | promise _ => True
  | constant value type => type.accepts value

/-- Whether a constant is written as a primitive of the type that it carries. -/
def Rendered : Binding → Prop
  | promise _ => True
  | constant value type => ∃ primitive, type.Primitive primitive ∧
      (constant value type).toWire = .obj [("scalar", .obj [("primitive", primitive)])]

theorem rendered_iff {b : Binding} : b.Rendered ↔ b.WellTyped := by
  cases b with
  | promise p => exact Iff.rfl
  | constant value type =>
    cases type with
    | untyped => exact iff_of_true ⟨_, .untyped value.render, rfl⟩ rfl
    | typed t =>
      rw [WellTyped, DeclaredType.accepts, ← LiteralType.primitive_iff]
      constructor
      · rintro ⟨primitive, hprimitive, hwire⟩
        have heq : t.primitive value = primitive := by simpa [toWire] using hwire
        rwa [heq]
      · intro h
        exact ⟨_, h, rfl⟩

end Binding

/-- Whether what an argument carries is checked on the way to a variable of this type, or was right
    from the start. -/
def Argument.Checked (t : DeclaredType) : Argument → Prop
  | bound b => t = .untyped → b.WellTyped
  | literal _ => True

theorem Argument.wellTyped_iff {a : Argument} {t : DeclaredType} {b : Binding}
    (h : a.bind t = .ok b) : b.WellTyped ↔ a.Checked t := by
  cases a with
  | literal value =>
    obtain ⟨-, haccepts, rfl⟩ := bind_literal_eq_ok_iff.1 h
    exact iff_of_true haccepts trivial
  | bound own =>
    cases own with
    | promise p =>
      obtain rfl := Except.ok.inj h
      exact iff_of_true trivial fun _ => trivial
    | constant value type =>
      obtain ⟨haccepts, rfl⟩ := bind_constant_eq_ok_iff.1 h
      cases t with
      | untyped => exact ⟨fun hwell _ => hwell, fun hchecked => hchecked rfl⟩
      | typed t => exact iff_of_true haccepts nofun

namespace Tracer

/-- What a call hands in, unless it fails. -/
def handed (t : Tracer) (target : String) (args : Arguments) : List (Variable × Argument) :=
  match t.prepare target args with
  | .ok (c, _) => c.handed args
  | .error _ => []

/-- What the successful ones among calls hand in, each argument beside the input that it is for. -/
def handedIn (t : Tracer) : List (String × Arguments) → List (Variable × Argument)
  | [] => []
  | (target, args) :: calls =>
    t.handed target args ++ ((call target args).runFrom t).value.2.handedIn calls

/-- A call captures what it is handed, or nothing if it fails. -/
theorem forall₂_capture? (t : Tracer) (target : String) (args : Arguments) :
    List.Forall₂ Callable.BoundTo (t.handed target args)
      ((t.capture? target args).toList.flatMap (·.inputs)) := by
  unfold handed
  cases hprepare : t.prepare target args with
  | error e =>
    rw [capture?, call_of_prepare_error hprepare]
    exact .nil
  | ok made =>
    obtain ⟨c, inputs⟩ := made
    rw [capture?, call_of_prepare_ok hprepare, hprepare]
    have hcaptured : (some (⟨target, inputs, t.nextPromise c target⟩ : Capture)).toList.flatMap
        (·.inputs) = inputs := List.append_nil _
    dsimp only
    rw [hcaptured]
    exact Callable.forall₂_handed (prepare_eq_ok_iff.1 hprepare).2.1

/-- What the calls of a run capture is what they were handed, one by one. -/
theorem forall₂_captures (t : Tracer) (calls : List (String × Arguments)) :
    List.Forall₂ Callable.BoundTo (t.handedIn calls) ((t.captures calls).flatMap (·.inputs)) := by
  induction calls generalizing t with
  | nil => exact .nil
  | cons made rest ih =>
    obtain ⟨target, args⟩ := made
    rw [captures, List.flatMap_append]
    exact List.rel_append (forall₂_capture? t target args) (ih _)

/-- The constants that a run captures are well typed exactly when what was handed in is checked. -/
theorem wellTyped_captures_iff {t : Tracer} {calls : List (String × Arguments)} :
    (∀ k ∈ t.captures calls, ∀ input ∈ k.inputs, input.2.WellTyped) ↔
      ∀ handed ∈ t.handedIn calls, handed.2.Checked handed.1.type := by
  rw [forall_iff_of_forall₂ (forall₂_captures t calls)
    fun handed input hbound => (Argument.wellTyped_iff hbound.2).symm, List.forall_mem_flatMap]

end Tracer

namespace Workflow

/-- Whether the body of a workflow ends with this argument for the output. -/
def Returns (w : Workflow σ) (callables : Callables) (notes : σ) (returned : Argument) : Prop :=
  ∃ reached, (((w.body (w.header.interface.inputNames.map Binding.ofInput) notes).run
    (w.opening callables)).runFrom notes).value.1 = .ok (returned, reached)

/-- A trace that succeeds binds what the body returns. -/
theorem exists_returns_of_trace {w : Workflow σ} {callables : Callables} {log traced : CallLog}
    {notes notes' : σ} {result : Binding}
    (h : ((w.trace callables log).runFrom notes).value = (.ok (result, traced), notes')) :
    ∃ returned, w.Returns callables notes returned ∧
      returned.bind w.header.interface.output.type = .ok result := by
  have hvalue := w.value_trace callables log notes
  rw [h] at hvalue
  obtain ⟨⟨returned, reached⟩, hran, hresult⟩ := bind_eq_ok_iff.1 hvalue.symm
  refine ⟨returned, ⟨reached, hran⟩, ?_⟩
  split at hresult
  · cases hresult
  · dsimp only at hresult
    cases hbind : w.bindResult reached returned with
    | error e =>
      rw [hbind] at hresult
      cases hresult
    | ok bound =>
      rw [hbind] at hresult
      obtain ⟨rfl, -⟩ := Prod.mk.inj (Except.ok.inj hresult)
      exact (bindResult_eq_ok hbind).1

/-- The calls in the log of a trace are those that its run captures. -/
theorem forall_entries_iff {w : Workflow σ} {callables : Callables} {log traced : CallLog}
    {notes notes' : σ} {result : Binding}
    (h : ((w.trace callables log).runFrom notes).value = (.ok (result, traced), notes'))
    {P : Binding → Prop} :
    (∀ e ∈ traced.entries, ∀ input ∈ e.2.inputs, P input.2) ↔
      ∀ k ∈ w.history callables notes, ∀ input ∈ k.inputs, P input.2 := by
  obtain ⟨t, rfl, rfl, -⟩ := trace_eq_ok h
  have hperm := (w.hasHistory callables notes).entries_perm
  simp only [hperm.mem_iff, List.forall_mem_map]

/-- What a binding is on the wire. An argument is bound to something well typed exactly when what it
    carries is checked, and a constant is written as a primitive of its type exactly when it is well
    typed. So the inputs of all calls of a traced workflow are written as their types say exactly
    when no call hands an ill-typed constant to an untyped input, and likewise its result. -/
theorem rendered_iff_checked :
    (∀ (t : DeclaredType) (a : Argument) (b : Binding), a.bind t = .ok b →
      (b.WellTyped ↔ a.Checked t)) ∧
    (∀ b : Binding, b.Rendered ↔ b.WellTyped) ∧
    ∀ (w : Workflow σ) (callables : Callables) (log : CallLog) (notes : σ) (result : Binding)
      (traced : CallLog) (notes' : σ),
      ((w.trace callables log).runFrom notes).value = (.ok (result, traced), notes') →
      ((∀ e ∈ traced.entries, ∀ input ∈ e.2.inputs, input.2.Rendered) ↔
        ∀ handed ∈ (w.opening callables).handedIn (w.calls callables notes),
          handed.2.Checked handed.1.type) ∧
      ∃ returned, w.Returns callables notes returned ∧
        (result.Rendered ↔ returned.Checked w.header.interface.output.type) := by
  refine ⟨fun t a b => Argument.wellTyped_iff, fun b => Binding.rendered_iff, ?_⟩
  intro w callables log notes result traced notes' h
  constructor
  · simp only [Binding.rendered_iff]
    rw [forall_entries_iff h]
    exact Tracer.wellTyped_captures_iff
  · obtain ⟨returned, hreturns, hbind⟩ := exists_returns_of_trace h
    exact ⟨returned, hreturns, Binding.rendered_iff.trans (Argument.wellTyped_iff hbind)⟩

/-- A task with one untyped input. -/
def printing : Callables :=
  ⟨[⟨"print", .task, ⟨[⟨"line", .untyped⟩], ⟨"printed", .untyped⟩⟩, .positional⟩]⟩

/-- A workflow that hands something to the task and returns it. -/
def echoing (a : Argument) : Workflow Unit where
  header := ⟨⟨.workflow, "p", "d", "echoing", "v"⟩, ⟨[], ⟨"echo", .untyped⟩⟩⟩
  mode := .sync
  body _ notes := .call "print" (.positional [a]) fun _ => .finish notes (.ok a)

/-- A text that was made as an integer is still one after the call and as the result, and is written
    as one. -/
theorem mistyped_on_wire :
    let mistyped : Binding := .constant (.str "x") (.typed .integer)
    (Argument.bound mistyped).bind .untyped = .ok mistyped ∧
      ¬(DeclaredType.typed .integer).accepts (.str "x") ∧
      mistyped.toWire =
        .obj [("scalar", .obj [("primitive", .obj [("integer", .str "x")])])] ∧
      ∃ traced, (((echoing (.bound mistyped)).trace printing .empty).runFrom ()).value =
          (.ok (mistyped, traced), ()) ∧
        traced.entries = [("print-0", ⟨"print", [("line", mistyped)]⟩)] := by
  refine ⟨rfl, by decide, rfl, _, rfl, by decide +kernel⟩

/-- An integer that was made as one is written as one. -/
theorem echoed_on_wire :
    let three : Binding := .constant (.num (.int 3 (by decide))) (.typed .integer)
    ∃ result traced,
      (((echoing (.bound three)).trace printing .empty).runFrom ()).value =
        (.ok (result, traced), ()) ∧
      (∀ e ∈ traced.entries, ∀ input ∈ e.2.inputs, input.2.Rendered) ∧ result.Rendered := by
  intro three
  obtain ⟨-, -, hwire⟩ := rendered_iff_checked (σ := Unit)
  obtain ⟨result, traced, htrace⟩ : ∃ result traced,
      (((echoing (.bound three)).trace printing .empty).runFrom ()).value =
        (.ok (result, traced), ()) := ⟨_, _, rfl⟩
  obtain ⟨hcalls, returned, ⟨reached, hreturned⟩, hresult⟩ := hwire _ _ _ _ _ _ _ htrace
  have hchecked : (Argument.bound three).Checked .untyped := fun _ => rfl
  refine ⟨result, traced, htrace, hcalls.2 ?_, hresult.2 ?_⟩
  · intro handed hhanded
    obtain rfl : handed = (⟨"line", .untyped⟩, .bound three) := List.mem_singleton.1 hhanded
    exact hchecked
  · obtain ⟨rfl, -⟩ := Prod.mk.inj (Except.ok.inj hreturned)
    exact hchecked

end Workflow

end TaskGraph
