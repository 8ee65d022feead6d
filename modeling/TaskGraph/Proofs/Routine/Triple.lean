import TaskGraph.Routine

namespace TaskGraph.Routine

variable {s t α β : Type}

/-- Whether a computation ended as one of the two conditions says. -/
def Ends (Q : α → s → Prop) (E : Error → s → Prop) : Except Error α × s → Prop
  | (.ok a, reached) => Q a reached
  | (.error e, reached) => E e reached

/-- From every state with `P`, the computation succeeds with `Q` or fails with `E`, which speaks of
    the state that was reached. -/
def Triple (P : s → Prop) (p : Routine s α) (Q : α → s → Prop) (E : Error → s → Prop) : Prop :=
  ∀ state, P state → Ends Q E (p.runFrom state).value

variable {P P' : s → Prop} {Q Q' : α → s → Prop} {E E' : Error → s → Prop} {R : β → s → Prop}

theorem Triple.bind {p : Routine s α} {f : α → Routine s β} (hp : Triple P p Q E)
    (hf : ∀ a, Triple (Q a) (f a) R E) : Triple P (p >>= f) R E := by
  intro state hstate
  have hends := hp state hstate
  rw [runFrom_bind, Logged.value_bind]
  generalize (p.runFrom state).value = reached at hends ⊢
  obtain ⟨outcome, between⟩ := reached
  cases outcome with
  | ok a => exact hf a between hends
  | error e => exact hends

theorem triple_pure (a : α) : Triple (Q a) (pure a : Routine s α) Q E :=
  fun _ hstate => hstate

theorem Triple.pure_of {a : α} (h : ∀ state, P state → Q a state) :
    Triple P (pure a : Routine s α) Q E :=
  h

theorem Triple.weaken {p : Routine s α} (hp : Triple P p Q E) (hP : ∀ state, P' state → P state)
    (hQ : ∀ a state, Q a state → Q' a state) (hE : ∀ e state, E e state → E' e state) :
    Triple P' p Q' E' := by
  intro state hstate
  have hends := hp state (hP state hstate)
  generalize (p.runFrom state).value = reached at hends ⊢
  obtain ⟨outcome, between⟩ := reached
  cases outcome with
  | ok a => exact hQ a between hends
  | error e => exact hE e between hends

/-- What holds of the state after success and after failure alike. -/
theorem Triple.reached {p : Routine s α} (hp : Triple P p (fun _ => P') (fun _ => P')) {state : s}
    (h : P state) : P' (p.runFrom state).value.2 := by
  have hends := hp state h
  generalize (p.runFrom state).value = reached at hends ⊢
  obtain ⟨outcome, between⟩ := reached
  cases outcome with
  | ok a => exact hends
  | error e => exact hends

/-- The rule for a loop. The invariant may depend on the part of the list that is still to come. -/
theorem triple_foldlM {f : β → α → Routine s β} {I : List α → β → s → Prop}
    (hstep : ∀ a as b, Triple (I (a :: as) b) (f b a) (I as) E) (as : List α) (b : β) :
    Triple (I as b) (as.foldlM f b) (I []) E := by
  induction as generalizing b with
  | nil => exact triple_pure b
  | cons a as ih =>
    rw [List.foldlM_cons]
    exact (hstep a as b).bind ih

/-- Checks one after the other end with the first one that fails. -/
theorem forM_ofExcept_cases (outcomes : List (Except Error Unit)) (state : s) :
    ((∀ x ∈ outcomes, x = .ok ()) ∧
        ((outcomes.forM ofExcept : Routine s PUnit).runFrom state).value = (.ok ⟨⟩, state)) ∨
      ∃ e, .error e ∈ outcomes ∧
        ((outcomes.forM ofExcept : Routine s PUnit).runFrom state).value = (.error e, state) := by
  induction outcomes with
  | nil => exact .inl ⟨by simp, rfl⟩
  | cons x rest ih =>
    have hcons : (List.forM (x :: rest) ofExcept : Routine s PUnit) =
        ofExcept x >>= fun _ => rest.forM ofExcept := rfl
    rw [hcons, runFrom_bind, runFrom_ofExcept, pure_bind]
    cases x with
    | ok u =>
      rcases ih with ⟨hall, hrest⟩ | ⟨e, hmem, hrest⟩
      · refine .inl ⟨?_, hrest⟩
        intro y hy
        rcases List.mem_cons.1 hy with rfl | hy
        · rfl
        · exact hall y hy
      · exact .inr ⟨e, List.mem_cons_of_mem _ hmem, hrest⟩
    | error e => exact .inr ⟨e, List.mem_cons_self, rfl⟩

end TaskGraph.Routine
