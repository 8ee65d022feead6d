import TaskGraph.Proofs.Trace.Grouping
import TaskGraph.Trace.Workflow

namespace TaskGraph

/-- One successful call: what entered the log and the promise that came back. -/
structure Capture where
  target : String
  inputs : List (String × Binding)
  promise : Promise

namespace Tracer

/-- A trace in which nothing has been called. -/
def start (callables : Callables) (inputs : List String) : Tracer := ⟨callables, inputs, .empty⟩

/-- The trace after calls made one after the other, whether or not they succeed. -/
def after (t : Tracer) : List (String × Arguments) → Tracer
  | [] => t
  | (target, args) :: calls => ((call target args).runFrom t).value.2.after calls

/-- What calls made one after the other answer. -/
def answers (t : Tracer) : List (String × Arguments) → List (Except Error Binding)
  | [] => []
  | (target, args) :: calls =>
    let (answer, next) := ((call target args).runFrom t).value
    answer :: next.answers calls

/-- The call as it enters a history, unless it fails. -/
def capture? (t : Tracer) (target : String) (args : Arguments) : Option Capture :=
  match ((call target args).runFrom t).value.1, t.prepare target args with
  | .ok (.promise promise), .ok (_, inputs) => some ⟨target, inputs, promise⟩
  | _, _ => none

/-- The successful ones among calls made one after the other. -/
def captures (t : Tracer) : List (String × Arguments) → List Capture
  | [] => []
  | (target, args) :: calls =>
    (t.capture? target args).toList ++ ((call target args).runFrom t).value.2.captures calls

/-- The promise that the next call to a target answers. -/
def nextPromise (t : Tracer) (c : Callable) (target : String) : Promise :=
  ⟨nodeId target (t.calls.group target).length, c.interface.output.name⟩

/-- The trace with one more call in its log. -/
def recorded (t : Tracer) (target : String) (inputs : List (String × Binding)) : Tracer :=
  { t with calls := (t.calls.record target inputs).2 }

theorem accept_eq_ok_iff {t : Tracer} {b : Binding} {u : Unit} :
    t.accept b = .ok u ↔ t.admits b := by
  cases b with
  | promise p => by_cases h : t.admitsPromise p <;> simp [accept, admits, h]
  | constant value type => simp [accept, admits]

theorem acceptInputs_eq_ok_iff {t : Tracer} {label : String} {inputs : List (String × Binding)}
    {u : Unit} : t.acceptInputs label inputs = .ok u ↔ ∀ input ∈ inputs, t.admits input.2 := by
  induction inputs with
  | nil => simp [acceptInputs]
  | cons input rest ih =>
    obtain ⟨param, binding⟩ := input
    rw [acceptInputs, bind_eq_ok_iff, List.forall_mem_cons, ← ih]
    simp only [mapError_eq_ok_iff, accept_eq_ok_iff]
    constructor
    · rintro ⟨_, hadmits, hrest⟩
      exact ⟨hadmits, hrest⟩
    · rintro ⟨hadmits, hrest⟩
      exact ⟨(), hadmits, hrest⟩

/-- What a call needs: something callable of that name, arguments that fit it, and inputs that the
    trace admits. -/
theorem prepare_eq_ok_iff {t : Tracer} {target : String} {args : Arguments} {c : Callable}
    {inputs : List (String × Binding)} :
    t.prepare target args = .ok (c, inputs) ↔
      t.callables.get? target = some c ∧ c.bind args = .ok inputs ∧
        ∀ input ∈ inputs, t.admits input.2 := by
  unfold prepare
  cases hget : t.callables.get? target with
  | none => simp [throw, throwThe, MonadExceptOf.throw]
  | some found =>
    simp only [bind_eq_ok_iff, acceptInputs_eq_ok_iff]
    constructor
    · rintro ⟨bound, hbind, _, hadmits, heq⟩
      obtain ⟨rfl, rfl⟩ : found = c ∧ bound = inputs := by simpa [pure, Except.pure] using heq
      exact ⟨rfl, hbind, hadmits⟩
    · rintro ⟨heq, hbind, hadmits⟩
      obtain rfl := Option.some.inj heq
      exact ⟨inputs, hbind, (), hadmits, rfl⟩

/-- A call that cannot be made leaves the trace as it was. -/
theorem call_of_prepare_error {t : Tracer} {target : String} {args : Arguments} {e : Error}
    (h : t.prepare target args = .error e) :
    ((call target args).runFrom t).value = (.error e, t) := by
  rw [call, Routine.runFrom_bind, Routine.runFrom_get]
  simp only [pure_bind, Routine.runFrom_bind, Routine.runFrom_ofExcept, h]
  rfl

theorem call_of_prepare_ok {t : Tracer} {target : String} {args : Arguments} {c : Callable}
    {inputs : List (String × Binding)} (h : t.prepare target args = .ok (c, inputs)) :
    ((call target args).runFrom t).value =
      (.ok (.promise (t.nextPromise c target)), t.recorded target inputs) := by
  rw [call, Routine.runFrom_bind, Routine.runFrom_get]
  simp only [pure_bind, Routine.runFrom_bind, Routine.runFrom_ofExcept, h]
  rfl

/-- Everything that a call can do. -/
theorem call_cases (t : Tracer) (target : String) (args : Arguments) :
    (∃ e, ((call target args).runFrom t).value = (.error e, t) ∧ t.capture? target args = none) ∨
    (∃ c inputs, t.prepare target args = .ok (c, inputs) ∧
      ((call target args).runFrom t).value =
        (.ok (.promise (t.nextPromise c target)), t.recorded target inputs) ∧
      t.capture? target args = some ⟨target, inputs, t.nextPromise c target⟩) := by
  cases h : t.prepare target args with
  | error e =>
    have hcall := call_of_prepare_error h
    exact .inl ⟨e, hcall, by rw [capture?, hcall]⟩
  | ok made =>
    obtain ⟨c, inputs⟩ := made
    have hcall := call_of_prepare_ok h
    exact .inr ⟨c, inputs, rfl, hcall, by rw [capture?, hcall, h]⟩

/-- Whether a promise names the output of a call in the log. -/
def Names (t : Tracer) (p : Promise) : Prop :=
  ∃ target i c, i < (t.calls.group target).length ∧ t.callables.get? target = some c ∧
    p = ⟨nodeId target i, c.interface.output.name⟩

/-- Whether a promise names an input of the workflow. -/
def NamesInput (t : Tracer) (p : Promise) : Prop := p.node = startNode ∧ p.var ∈ t.inputs

/-- Reading the text of a promise finds neither more nor less than what the log can name. -/
theorem admitsPromise_iff {t : Tracer} {p : Promise} :
    t.admitsPromise p ↔ t.NamesInput p ∨ t.Names p := by
  unfold admitsPromise NamesInput Names
  by_cases hstart : p.node = startNode
  · rw [if_pos hstart, decide_eq_true_eq]
    constructor
    · intro hvar
      exact .inl ⟨hstart, hvar⟩
    · rintro (⟨-, hvar⟩ | ⟨target, i, c, -, -, rfl⟩)
      · exact hvar
      · exact absurd hstart (nodeId_ne_startNode target i)
  · rw [if_neg hstart]
    constructor
    · intro h
      cases hlocate : t.calls.locate? p.node with
      | none => simp [hlocate] at h
      | some place =>
        obtain ⟨target, i⟩ := place
        obtain ⟨hnode, hlt⟩ := CallLog.locate?_eq_some_iff.1 hlocate
        simp only [hlocate, Option.any_eq_true, beq_iff_eq] at h
        obtain ⟨c, hget, hvar⟩ := h
        exact .inr ⟨target, i, c, hlt, hget, by rw [← hnode, hvar]⟩
    · rintro (⟨hnode, -⟩ | ⟨target, i, c, hlt, hget, rfl⟩)
      · exact absurd hnode hstart
      · have hlocate := CallLog.locate?_eq_some_iff.2 ⟨rfl, hlt⟩
        simp [hlocate, hget]

theorem group_recorded (t : Tracer) (target : String) (inputs : List (String × Binding))
    (other : String) :
    ((t.recorded target inputs).calls.group other).length =
      (t.calls.group other).length + if other = target then 1 else 0 := by
  rw [recorded, CallLog.group_record]
  split <;> simp

/-- A call makes the log name one promise more. -/
theorem names_recorded_iff {t : Tracer} {target : String} {c : Callable}
    (hget : t.callables.get? target = some c) (inputs : List (String × Binding)) (p : Promise) :
    (t.recorded target inputs).Names p ↔ t.Names p ∨ p = t.nextPromise c target := by
  unfold Names
  constructor
  · rintro ⟨other, i, d, hlt, hother, rfl⟩
    rw [group_recorded] at hlt
    by_cases hold : i < (t.calls.group other).length
    · exact .inl ⟨other, i, d, hold, hother, rfl⟩
    · obtain rfl : other = target := by
        by_cases heq : other = target
        · exact heq
        · rw [if_neg heq] at hlt
          omega
      rw [if_pos rfl] at hlt
      obtain rfl : d = c := Option.some.inj (hother.symm.trans hget)
      obtain rfl : i = (t.calls.group other).length := by omega
      exact .inr rfl
  · rintro (⟨other, i, d, hlt, hother, rfl⟩ | rfl)
    · exact ⟨other, i, d, by rw [group_recorded]; omega, hother, rfl⟩
    · exact ⟨target, (t.calls.group target).length, c,
        by rw [group_recorded, if_pos rfl]; omega, hget, rfl⟩

/-- A history of the calls in a log, in the order in which they were made, of which the log keeps no
    trace. `named` and `minted` say together that the promises handed out are the promises that the
    log can name. -/
structure HasHistory (t : Tracer) (history : List Capture) : Prop where
  entries_perm : t.calls.entries.Perm
    (history.map fun k => (k.promise.node, ⟨k.target, k.inputs⟩))
  named : ∀ k ∈ history, ∃ i c, i < (t.calls.group k.target).length ∧
    t.callables.get? k.target = some c ∧
    k.promise = ⟨nodeId k.target i, c.interface.output.name⟩
  minted : ∀ p, t.Names p → ∃ k ∈ history, k.promise = p
  nodes_nodup : (history.map (·.promise.node)).Nodup
  backward : ∀ (i : Nat) (k : Capture), history[i]? = some k → ∀ input ∈ k.inputs,
    ∀ p, input.2 = .promise p →
      t.NamesInput p ∨ ∃ j < i, ∃ e : Capture, history[j]? = some e ∧ e.promise = p

theorem start_hasHistory (callables : Callables) (inputs : List String) :
    (start callables inputs).HasHistory [] where
  entries_perm := .nil
  named := by simp
  minted := by
    rintro p ⟨target, i, c, hlt, -⟩
    cases hlt
  nodes_nodup := .nil
  backward := by simp

theorem HasHistory.names_iff {t : Tracer} {history : List Capture} (h : t.HasHistory history)
    {p : Promise} : t.Names p ↔ ∃ k ∈ history, k.promise = p := by
  constructor
  · exact h.minted p
  · rintro ⟨k, hk, rfl⟩
    obtain ⟨i, c, hlt, hget, hpromise⟩ := h.named k hk
    exact ⟨k.target, i, c, hlt, hget, hpromise⟩

theorem HasHistory.admitsPromise_iff {t : Tracer} {history : List Capture}
    (h : t.HasHistory history) {p : Promise} :
    t.admitsPromise p ↔ t.NamesInput p ∨ ∃ k ∈ history, k.promise = p := by
  rw [Tracer.admitsPromise_iff, h.names_iff]

theorem HasHistory.node_ne {t : Tracer} {history : List Capture} (h : t.HasHistory history)
    {k : Capture} (hk : k ∈ history) : k.promise.node ≠ startNode ∧ k.promise.node ≠ endNode := by
  obtain ⟨i, c, -, -, hpromise⟩ := h.named k hk
  rw [hpromise]
  exact ⟨nodeId_ne_startNode k.target i, nodeId_ne_endNode k.target i⟩

/-- The id of the next call to a target is new. -/
theorem HasHistory.nextPromise_notMem {t : Tracer} {history : List Capture}
    (h : t.HasHistory history) (c : Callable) (target : String) :
    (t.nextPromise c target).node ∉ history.map (·.promise.node) := by
  intro hmem
  obtain ⟨k, hk, hnode⟩ := List.mem_map.1 hmem
  obtain ⟨i, d, hlt, -, hpromise⟩ := h.named k hk
  rw [hpromise] at hnode
  obtain ⟨htarget, rfl⟩ := nodeId_inj.1 hnode
  rw [htarget] at hlt
  omega

/-- A successful call goes to the end of the history. Its inputs were admitted before it was
    recorded, so they name nothing but inputs of the workflow and earlier calls. -/
theorem HasHistory.recorded {t : Tracer} {history : List Capture} (h : t.HasHistory history)
    {target : String} {args : Arguments} {c : Callable} {inputs : List (String × Binding)}
    (hprepare : t.prepare target args = .ok (c, inputs)) :
    (t.recorded target inputs).HasHistory
      (history ++ [⟨target, inputs, t.nextPromise c target⟩]) := by
  obtain ⟨hget, -, hadmits⟩ := prepare_eq_ok_iff.1 hprepare
  refine ⟨?_, ?_, ?_, ?_, ?_⟩
  · rw [List.map_append]
    exact (CallLog.entries_record_perm t.calls target inputs).trans (h.entries_perm.append_right _)
  · intro k hk
    rcases List.mem_append.1 hk with hold | hnew
    · obtain ⟨i, d, hlt, hgot, hpromise⟩ := h.named k hold
      exact ⟨i, d, by rw [group_recorded]; omega, hgot, hpromise⟩
    · obtain rfl := List.mem_singleton.1 hnew
      refine ⟨(t.calls.group target).length, c, ?_, hget, rfl⟩
      rw [group_recorded, if_pos rfl]
      exact Nat.lt_succ_self _
  · intro p hnames
    rcases (names_recorded_iff hget inputs p).1 hnames with hold | rfl
    · obtain ⟨k, hk, hpromise⟩ := h.minted p hold
      exact ⟨k, List.mem_append_left _ hk, hpromise⟩
    · exact ⟨_, List.mem_append_right _ (List.mem_singleton.2 rfl), rfl⟩
  · rw [List.map_append]
    refine List.nodup_append.2 ⟨h.nodes_nodup, by simp, ?_⟩
    rintro node hold _ hnew rfl
    obtain rfl := List.mem_singleton.1 hnew
    exact h.nextPromise_notMem c target hold
  · intro i k hk input hinput p hp
    by_cases hlt : i < history.length
    · rw [List.getElem?_append_left hlt] at hk
      rcases h.backward i k hk input hinput p hp with hstart | ⟨j, hj, e, he, hpromise⟩
      · exact .inl hstart
      · refine .inr ⟨j, hj, e, ?_, hpromise⟩
        rw [List.getElem?_append_left (by omega), he]
    · rw [List.getElem?_append_right (by omega), List.getElem?_singleton] at hk
      split at hk
      · next hindex =>
        obtain rfl := Option.some.inj hk
        have hadmit := hadmits input hinput
        rw [hp] at hadmit
        rcases h.admitsPromise_iff.1 hadmit with hstart | ⟨e, he, hpromise⟩
        · exact .inl hstart
        · obtain ⟨j, hj, hget⟩ := List.mem_iff_getElem.1 he
          refine .inr ⟨j, by omega, e, ?_, hpromise⟩
          rw [List.getElem?_append_left hj, List.getElem?_eq_getElem hj, hget]
      · cases hk

/-- A call adds what it captures to the history, and nothing if it fails. -/
theorem HasHistory.call {t : Tracer} {history : List Capture} (h : t.HasHistory history)
    (target : String) (args : Arguments) :
    ((Tracer.call target args).runFrom t).value.2.HasHistory
      (history ++ (t.capture? target args).toList) := by
  rcases call_cases t target args with ⟨e, hcall, hcapture⟩ | ⟨c, inputs, hprepare, hcall, hcapture⟩
  · rw [hcall, hcapture]
    simpa using h
  · rw [hcall, hcapture]
    exact h.recorded hprepare

theorem HasHistory.after {t : Tracer} {history : List Capture} (h : t.HasHistory history)
    (calls : List (String × Arguments)) :
    (t.after calls).HasHistory (history ++ t.captures calls) := by
  induction calls generalizing t history with
  | nil => simpa [Tracer.after, captures] using h
  | cons made rest ih =>
    obtain ⟨target, args⟩ := made
    rw [captures, ← List.append_assoc]
    exact ih (h.call target args)

end Tracer

end TaskGraph
