import TaskGraph.Proofs.Trace.Admission
import TaskGraph.Compilation

namespace TaskGraph

open Tracer

variable {σ : Type}

/-- The calls that a body makes when it is run from a trace, in order. Which they are depends on
    what the earlier ones answer, failures included. -/
def Body.calls (t : Tracer) : Body σ → List (String × Arguments)
  | finish .. => []
  | call target args next =>
    let (answer, after) := ((Tracer.call target args).runFrom t).value
    (target, args) :: (next answer).calls after

/-- Running a body makes its calls and nothing else. -/
theorem Body.run_eq_ok {body : Body σ} {t reached : Tracer} {notes notes' : σ}
    {returned : Argument}
    (h : ((body.run t).runFrom notes).value = (.ok (returned, reached), notes')) :
    reached = t.after (body.calls t) := by
  induction body generalizing t with
  | finish final result =>
    rw [run, Routine.runFrom_bind_eq_ok_iff] at h
    obtain ⟨_, _, _, h⟩ := h
    rw [Routine.runFrom_bind_eq_ok_iff] at h
    obtain ⟨_, _, _, h⟩ := h
    obtain ⟨hpair, -⟩ := Prod.mk.inj h
    exact (Prod.mk.inj (Except.ok.inj hpair)).2.symm
  | call target args next ih =>
    rw [run, Routine.runFrom_bind_eq_ok_iff] at h
    obtain ⟨⟨answer, after⟩, between, hcall, h⟩ := h
    rw [Routine.runFrom_ofLogged, Logged.value_map] at hcall
    obtain ⟨hanswer, rfl⟩ := Prod.mk.inj hcall
    obtain hvalue := Except.ok.inj hanswer
    have hrest := ih answer h
    simp only [calls, Tracer.after, hvalue]
    exact hrest

namespace Workflow

/-- The trace in which a workflow starts. -/
def opening (w : Workflow σ) (callables : Callables) : Tracer :=
  start callables w.header.interface.inputNames

/-- The calls that the body of a workflow makes. -/
def calls (w : Workflow σ) (callables : Callables) (notes : σ) : List (String × Arguments) :=
  (w.body (w.header.interface.inputNames.map Binding.ofInput) notes).calls (w.opening callables)

/-- The successful calls of the body of a workflow, in the order in which it makes them. -/
def history (w : Workflow σ) (callables : Callables) (notes : σ) : List Capture :=
  (w.opening callables).captures (w.calls callables notes)

theorem hasHistory (w : Workflow σ) (callables : Callables) (notes : σ) :
    ((w.opening callables).after (w.calls callables notes)).HasHistory
      (w.history callables notes) :=
  (start_hasHistory callables w.header.interface.inputNames).after (w.calls callables notes)

/-- The log that a trace is handed makes no difference. -/
theorem trace_eq_trace_empty (w : Workflow σ) (callables : Callables) (log : CallLog) :
    w.trace callables log = w.trace callables .empty := rfl

/-- A result that is bound stands for what the body returned, and it can be an edge. -/
theorem bindResult_eq_ok {w : Workflow σ} {t : Tracer} {returned : Argument} {b : Binding}
    (h : w.bindResult t returned = .ok b) :
    returned.bind w.header.interface.output.type = .ok b ∧ t.admits b := by
  rw [bindResult, mapError_eq_ok_iff, bind_eq_ok_iff] at h
  obtain ⟨bound, hbind, h⟩ := h
  rw [bind_eq_ok_iff] at h
  obtain ⟨_, haccept, h⟩ := h
  obtain rfl : bound = b := Except.ok.inj h
  exact ⟨hbind, accept_eq_ok_iff.1 haccept⟩

/-- A trace that succeeds ends with the log of its calls and with a result that this log admits. -/
theorem trace_eq_ok {w : Workflow σ} {callables : Callables} {log traced : CallLog}
    {notes notes' : σ} {result : Binding}
    (h : ((w.trace callables log).runFrom notes).value = (.ok (result, traced), notes')) :
    ∃ t, t = (w.opening callables).after (w.calls callables notes) ∧ traced = t.calls ∧
      t.admits result := by
  rw [trace, Routine.runFrom_bind_eq_ok_iff] at h
  obtain ⟨_, _, hget, h⟩ := h
  rw [Routine.runFrom_get, Logged.value_pure] at hget
  obtain ⟨hstate, rfl⟩ := Prod.mk.inj hget
  obtain rfl := Except.ok.inj hstate
  rw [Routine.runFrom_bind_eq_ok_iff] at h
  obtain ⟨⟨returned, reached⟩, between, hrun, h⟩ := h
  have hreached := Body.run_eq_ok hrun
  refine ⟨reached, hreached, ?_⟩
  dsimp only at h
  split at h
  · rw [Routine.runFrom_bind_eq_ok_iff] at h
    obtain ⟨_, _, hthrow, _⟩ := h
    cases hthrow
  rw [Routine.runFrom_ofExcept_bind_eq_ok_iff] at h
  obtain ⟨b, hresult, h⟩ := h
  rw [Routine.runFrom_bind_eq_ok_iff] at h
  obtain ⟨_, _, _, h⟩ := h
  obtain ⟨hpair, -⟩ := Prod.mk.inj h
  obtain ⟨rfl, rfl⟩ := Prod.mk.inj (Except.ok.inj hpair)
  exact ⟨rfl, (bindResult_eq_ok hresult).2⟩

end Workflow

end TaskGraph
