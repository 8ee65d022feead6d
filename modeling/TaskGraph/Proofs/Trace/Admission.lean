import TaskGraph.Proofs.Trace.History

namespace TaskGraph.Tracer

theorem after_append (t : Tracer) (calls more : List (String × Arguments)) :
    t.after (calls ++ more) = (t.after calls).after more := by
  induction calls generalizing t with
  | nil => rfl
  | cons made rest ih => exact ih _

theorem answers_append (t : Tracer) (calls more : List (String × Arguments)) :
    t.answers (calls ++ more) = t.answers calls ++ (t.after calls).answers more := by
  induction calls generalizing t with
  | nil => rfl
  | cons made rest ih => exact congrArg _ (ih _)

theorem frame_after (t : Tracer) (calls : List (String × Arguments)) :
    (t.after calls).callables = t.callables ∧ (t.after calls).inputs = t.inputs := by
  induction calls generalizing t with
  | nil => exact ⟨rfl, rfl⟩
  | cons made rest ih =>
    obtain ⟨target, args⟩ := made
    obtain ⟨hcallables, hinputs⟩ := ih ((call target args).runFrom t).value.2
    rw [after, hcallables, hinputs]
    rcases call_cases t target args with ⟨e, hcall, -⟩ | ⟨c, inputs, -, hcall, -⟩
    · rw [hcall]
      exact ⟨rfl, rfl⟩
    · rw [hcall]
      exact ⟨rfl, rfl⟩

/-- The successful answers of a run are the promises of its captures, in the same order. -/
theorem filterMap_answers (t : Tracer) (calls : List (String × Arguments)) :
    (t.answers calls).filterMap Except.toOption =
      (t.captures calls).map fun k => .promise k.promise := by
  induction calls generalizing t with
  | nil => rfl
  | cons made rest ih =>
    obtain ⟨target, args⟩ := made
    rw [answers, captures, List.map_append, ← ih]
    rcases call_cases t target args with ⟨e, hcall, hcapture⟩ | ⟨c, inputs, -, hcall, hcapture⟩
    · rw [hcall, hcapture]
      rfl
    · rw [hcall, hcapture]
      rfl

theorem ok_mem_answers_iff {t : Tracer} {calls : List (String × Arguments)} {b : Binding} :
    .ok b ∈ t.answers calls ↔ ∃ k ∈ t.captures calls, .promise k.promise = b := by
  have hmem : .ok b ∈ t.answers calls ↔ b ∈ (t.answers calls).filterMap Except.toOption := by
    rw [List.mem_filterMap]
    constructor
    · intro h
      exact ⟨_, h, rfl⟩
    · rintro ⟨answer, h, hsome⟩
      cases answer with
      | ok found =>
        obtain rfl := Option.some.inj hsome
        exact h
      | error e => cases hsome
  rw [hmem, filterMap_answers, List.mem_map]

/-- After a run from the start, the promises admitted are those of the inputs and of the answers. -/
theorem admitsPromise_after_iff {callables : Callables} {inputs : List String}
    {calls : List (String × Arguments)} {p : Promise} :
    ((start callables inputs).after calls).admitsPromise p ↔
      p.node = startNode ∧ p.var ∈ inputs ∨
        .ok (.promise p) ∈ (start callables inputs).answers calls := by
  have hhistory := (start_hasHistory callables inputs).after calls
  rw [hhistory.admitsPromise_iff, NamesInput, (frame_after _ calls).2, ok_mem_answers_iff]
  simp only [List.nil_append, Binding.promise.injEq]
  rfl

/-- After any run of calls, successful or not, a promise can be an edge exactly when it stands for
    an input of the workflow or was handed out by an earlier call. It stays so for the rest of the
    run; no promise is handed out twice; an index is understood in its canonical spelling only; and
    a call that fails changes nothing. -/
theorem accept_iff_minted (callables : Callables) (inputs : List String)
    (calls : List (String × Arguments)) :
    let t := (start callables inputs).after calls
    let minted := (start callables inputs).answers calls
    (∀ p, t.accept (.promise p) = .ok () ↔
      p.node = startNode ∧ p.var ∈ inputs ∨ .ok (.promise p) ∈ minted) ∧
    (∀ b, .ok b ∈ minted → ∃ p, b = .promise p) ∧
    (∀ more p, .ok (.promise p) ∈ minted → (t.after more).accept (.promise p) = .ok ()) ∧
    (minted.filterMap Except.toOption).Nodup ∧
    (∀ target text var, '-' ∉ text.toList → target ++ "-" ++ text ≠ startNode →
      (t.accept (.promise ⟨target ++ "-" ++ text, var⟩) = .ok () ↔
        ∃ i c, text = toString i ∧ i < (t.calls.group target).length ∧
          callables.get? target = some c ∧ var = c.interface.output.name)) ∧
    (∀ target args e, ((call target args).runFrom t).value.1 = .error e →
      ((call target args).runFrom t).value.2 = t) := by
  intro t minted
  have hhistory := (start_hasHistory callables inputs).after calls
  refine ⟨?_, ?_, ?_, ?_, ?_, ?_⟩
  · intro p
    rw [accept_eq_ok_iff]
    exact admitsPromise_after_iff
  · intro b hb
    obtain ⟨k, -, hk⟩ := ok_mem_answers_iff.1 hb
    exact ⟨k.promise, hk.symm⟩
  · intro more p hp
    rw [accept_eq_ok_iff, ← after_append]
    refine admitsPromise_after_iff.2 (.inr ?_)
    rw [answers_append]
    exact List.mem_append_left _ hp
  · rw [filterMap_answers]
    have hnodes := hhistory.nodes_nodup
    rw [List.nil_append] at hnodes
    rw [List.nodup_iff_pairwise_ne, List.pairwise_map] at hnodes ⊢
    refine hnodes.imp ?_
    intro k l hne heq
    exact hne (congrArg Promise.node (Binding.promise.inj heq))
  · intro target text var hdash hstart
    rw [accept_eq_ok_iff, admits, admitsPromise_iff]
    constructor
    · rintro (⟨hnode, -⟩ | ⟨other, i, c, hlt, hget, heq⟩)
      · exact absurd hnode hstart
      · obtain ⟨hnode, rfl⟩ := Promise.mk.inj heq
        have hsplit : Text.splitLast? '-' (target ++ "-" ++ text) = some (target, text) :=
          Text.splitLast?_eq_some_iff.2 ⟨rfl, hdash⟩
        rw [hnode, splitLast?_nodeId] at hsplit
        obtain ⟨rfl, rfl⟩ := Prod.mk.inj (Option.some.inj hsplit)
        rw [(frame_after _ calls).1] at hget
        exact ⟨i, c, rfl, hlt, hget, rfl⟩
    · rintro ⟨i, c, rfl, hlt, hget, rfl⟩
      refine .inr ⟨target, i, c, hlt, ?_, rfl⟩
      rw [(frame_after _ calls).1]
      exact hget
  · intro target args e herror
    rcases call_cases t target args with ⟨_, hcall, -⟩ | ⟨c, inputs, -, hcall, -⟩
    · rw [hcall]
    · rw [hcall] at herror
      cases herror

end TaskGraph.Tracer
