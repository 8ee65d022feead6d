import TaskGraph.Proofs.Trace.Run

namespace TaskGraph

variable {σ : Type}

/-- Outcomes that are the same failure, or successes that stand in a relation. -/
inductive SameOutcome {α β : Type} (related : α → β → Prop) : Except Error α → Except Error β → Prop
  | error (e : Error) : SameOutcome related (.error e) (.error e)
  | ok {a : α} {b : β} : related a b → SameOutcome related (.ok a) (.ok b)

/-- Related outcomes come to the same when what follows does not tell them apart. -/
theorem SameOutcome.bind_eq {α β γ : Type} {related : α → β → Prop} {x : Except Error α}
    {y : Except Error β} (h : SameOutcome related x y) {f : α → Except Error γ}
    {g : β → Except Error γ} (hnext : ∀ a b, related a b → g b = f a) : y >>= g = x >>= f := by
  cases h with
  | error e => rfl
  | ok hrelated => exact hnext _ _ hrelated

/-- Bodies that make the same calls, go on alike after every outcome and end alike, whatever they
    note. -/
inductive Body.Alike : Body σ → Body σ → Prop
  | finish (notes notes' : σ) (result : Except Error Argument) :
      Alike (.finish notes result) (.finish notes' result)
  | call {target : String} {args : Arguments} {next next' : Except Error Binding → Body σ} :
      (∀ outcome, Alike (next outcome) (next' outcome)) →
      Alike (.call target args next) (.call target args next')

/-- A workflow whose body is a function of the bindings and results that it receives. -/
def Workflow.Pure (w : Workflow σ) : Prop :=
  ∀ inputs notes notes', (w.body inputs notes).Alike (w.body inputs notes')

theorem Body.Alike.refl (body : Body σ) : body.Alike body := by
  induction body with
  | finish notes result => exact .finish notes notes result
  | call target args next ih => exact .call ih

/-- There is nothing to note in a type with one member. -/
theorem Workflow.pure_of_subsingleton [Subsingleton σ] (w : Workflow σ) : w.Pure := by
  intro inputs notes notes'
  rw [Subsingleton.elim notes' notes]
  exact .refl _

namespace Tracer

/-- Two traces of workflows with the same inputs and with the same calls behind them. -/
structure Twin (t t' : Tracer) : Prop where
  inputs_eq : t'.inputs = t.inputs
  calls_eq : t'.calls = t.calls
  shared : ∃ history, t.HasHistory history ∧ t'.HasHistory history

namespace Twin

variable {t t' : Tracer}

theorem start (callables callables' : Callables) (inputs : List String) :
    (start callables inputs).Twin (start callables' inputs) :=
  ⟨rfl, rfl, [], start_hasHistory callables inputs, start_hasHistory callables' inputs⟩

theorem accept_eq (h : t.Twin t') (b : Binding) : t'.accept b = t.accept b := by
  obtain ⟨history, hhistory, hhistory'⟩ := h.shared
  cases b with
  | constant value type => rfl
  | promise p =>
    have hadmits : t'.admitsPromise p = t.admitsPromise p := by
      rw [Bool.eq_iff_iff, hhistory.admitsPromise_iff, hhistory'.admitsPromise_iff]
      unfold NamesInput
      rw [h.inputs_eq]
    rw [accept, accept, hadmits]

theorem acceptInputs_eq (h : t.Twin t') (label : String) (inputs : List (String × Binding)) :
    t'.acceptInputs label inputs = t.acceptInputs label inputs := by
  induction inputs with
  | nil => rfl
  | cons input rest ih =>
    obtain ⟨param, binding⟩ := input
    rw [acceptInputs, acceptInputs, h.accept_eq, ih]

/-- Calls are prepared alike when they go to something that both traces know. -/
theorem prepare_eq (h : t.Twin t') {target : String}
    (htarget : t'.callables.get? target = t.callables.get? target) (args : Arguments) :
    t'.prepare target args = t.prepare target args := by
  unfold prepare
  rw [htarget]
  simp only [h.acceptInputs_eq]

/-- A call to something that both traces know has the same outcome in both, and enters both logs
    or none. -/
theorem call (h : t.Twin t') {target : String}
    (htarget : t'.callables.get? target = t.callables.get? target) (args : Arguments) :
    ((Tracer.call target args).runFrom t').value.1 =
        ((Tracer.call target args).runFrom t).value.1 ∧
      ((Tracer.call target args).runFrom t).value.2.Twin
        ((Tracer.call target args).runFrom t').value.2 := by
  have hprepare := h.prepare_eq htarget args
  cases hmade : t.prepare target args with
  | error e =>
    rw [call_of_prepare_error hmade, call_of_prepare_error (hprepare.trans hmade)]
    exact ⟨rfl, h⟩
  | ok made =>
    obtain ⟨c, inputs⟩ := made
    have hmade' := hprepare.trans hmade
    have hnext : t'.nextPromise c target = t.nextPromise c target := by
      unfold nextPromise
      rw [h.calls_eq]
    obtain ⟨history, hhistory, hhistory'⟩ := h.shared
    rw [call_of_prepare_ok hmade, call_of_prepare_ok hmade', hnext]
    refine ⟨rfl, h.inputs_eq, ?_, _, hhistory.recorded hmade, ?_⟩
    · unfold recorded
      rw [h.calls_eq]
    · rw [← hnext]
      exact hhistory'.recorded hmade'

end Twin

theorem callables_call (t : Tracer) (target : String) (args : Arguments) :
    ((call target args).runFrom t).value.2.callables = t.callables :=
  (t.frame_after [(target, args)]).1

theorem mem_of_mem_captures {t : Tracer} {calls : List (String × Arguments)} {k : Capture}
    (h : k ∈ t.captures calls) : k.target ∈ calls.map (·.1) := by
  induction calls generalizing t with
  | nil => cases h
  | cons made rest ih =>
    obtain ⟨target, args⟩ := made
    rw [List.map_cons]
    rcases List.mem_append.1 h with h | h
    · rcases call_cases t target args with ⟨e, -, hcapture⟩ | ⟨c, inputs, -, -, hcapture⟩
      · rw [hcapture] at h
        cases h
      · rw [hcapture] at h
        obtain rfl := List.mem_singleton.1 h
        exact List.mem_cons_self
    · exact List.mem_cons_of_mem _ (ih h)

end Tracer

theorem Body.value_run_call (target : String) (args : Arguments)
    (next : Except Error Binding → Body σ) (t : Tracer) (notes : σ) :
    (((call target args next).run t).runFrom notes).value =
      (((next ((Tracer.call target args).runFrom t).value.1).run
        ((Tracer.call target args).runFrom t).value.2).runFrom notes).value := by
  rw [run, Routine.runFrom_bind, Logged.value_bind, Routine.runFrom_ofLogged, Logged.value_map]

/-- Bodies that are alike run alike from twin traces. The names that matter are those that the run
    calls, successfully or not. -/
theorem Body.Alike.run {body body' : Body σ} (halike : body.Alike body') {t t' : Tracer}
    (htwin : t.Twin t')
    (hknown : ∀ made ∈ body.calls t, t'.callables.get? made.1 = t.callables.get? made.1)
    (notes notes' : σ) :
    SameOutcome (fun left right => right.1 = left.1 ∧ left.2.Twin right.2)
      ((body.run t).runFrom notes).value.1 ((body'.run t').runFrom notes').value.1 := by
  induction halike generalizing t t' with
  | finish final final' result =>
    cases result with
    | error e => exact .error e
    | ok returned => exact .ok ⟨rfl, htwin⟩
  | @call target args next next' _ ih =>
    obtain ⟨htarget, hrest⟩ := List.forall_mem_cons.1 hknown
    obtain ⟨hanswer, hafter⟩ := htwin.call htarget args
    rw [value_run_call, value_run_call, hanswer]
    refine ih _ hafter ?_
    intro made hmade
    rw [Tracer.callables_call, Tracer.callables_call]
    exact hrest made hmade

namespace Workflow

/-- The names that the body of a workflow calls, successfully or not. -/
def callees (w : Workflow σ) (callables : Callables) (notes : σ) : List String :=
  (w.calls callables notes).map (·.1)

theorem bindResult_eq (w : Workflow σ) {t t' : Tracer} (h : t.Twin t') (returned : Argument) :
    w.bindResult t' returned = w.bindResult t returned := by
  unfold bindResult
  simp only [h.accept_eq]

/-- The outcome of a trace, from the outcome of the body. -/
theorem value_trace (w : Workflow σ) (callables : Callables) (log : CallLog) (notes : σ) :
    ((w.trace callables log).runFrom notes).value.1 =
      (((w.body (w.header.interface.inputNames.map Binding.ofInput) notes).run
        (w.opening callables)).runFrom notes).value.1 >>= fun ran =>
          if ran.2.calls.isEmpty then .error (.emptyWorkflow w.name)
          else (w.bindResult ran.2 ran.1).map fun result => (result, ran.2.calls) := by
  have hopening : (⟨callables, w.header.interface.inputNames, log.clear⟩ : Tracer) =
      w.opening callables := rfl
  rw [trace, Routine.runFrom_bind, Routine.runFrom_get, pure_bind]
  dsimp only
  rw [hopening, Routine.runFrom_bind, Logged.value_bind]
  generalize (((w.body (w.header.interface.inputNames.map Binding.ofInput) notes).run
    (w.opening callables)).runFrom notes).value = ended
  obtain ⟨outcome, between⟩ := ended
  cases outcome with
  | error e => rfl
  | ok ran =>
    obtain ⟨returned, reached⟩ := ran
    change _ = if reached.calls.isEmpty then _ else _
    dsimp only
    split
    · rfl
    · rw [Routine.runFrom_bind, Routine.runFrom_ofExcept, pure_bind]
      cases w.bindResult reached returned with
      | error e => rfl
      | ok result => rfl

/-- A trace depends on nothing but the workflow and what its body finds under the names that it
    calls. -/
theorem Pure.trace_eq {w : Workflow σ} (hpure : w.Pure) {callables callables' : Callables}
    {notes : σ}
    (hknown : ∀ name ∈ w.callees callables notes, callables'.get? name = callables.get? name)
    (log log' : CallLog) (notes' : σ) :
    ((w.trace callables' log').runFrom notes').value.1 =
      ((w.trace callables log).runFrom notes).value.1 := by
  have hrun := (hpure (w.header.interface.inputNames.map Binding.ofInput) notes notes').run
    (Tracer.Twin.start callables callables' w.header.interface.inputNames)
    (fun made hmade => hknown made.1 (List.mem_map_of_mem hmade)) notes notes'
  rw [value_trace, value_trace]
  refine hrun.bind_eq ?_
  rintro ⟨returned, reached⟩ ⟨_, reached'⟩ ⟨rfl, htwin⟩
  dsimp only at htwin ⊢
  rw [htwin.calls_eq, w.bindResult_eq htwin]

end Workflow

end TaskGraph
