import TaskGraph.Error
import TaskGraph.Log

namespace TaskGraph

/-- A computation that logs and may fail. -/
abbrev Action (α : Type) : Type := ExceptT Error Logged α

/-- A computation that logs, may fail and changes a state of type `s`. After a failure the state
    that was reached remains. -/
abbrev Routine (s α : Type) : Type := ExceptT Error (StateT s Logged) α

/-- Checks in two steps succeed when both steps do. -/
theorem bind_eq_ok_iff {ε α β : Type} {x : Except ε α} {f : α → Except ε β} {b : β} :
    x >>= f = .ok b ↔ ∃ a, x = .ok a ∧ f a = .ok b := by
  cases x <;> simp [Bind.bind, Except.bind]

theorem mapError_eq_ok_iff {ε δ α : Type} {x : Except ε α} {f : ε → δ} {a : α} :
    x.mapError f = .ok a ↔ x = .ok a := by
  cases x with
  | ok b =>
    constructor
    · intro h
      obtain rfl := Except.ok.inj h
      rfl
    · intro h
      obtain rfl := Except.ok.inj h
      rfl
  | error e =>
    constructor
    · intro h
      cases h
    · intro h
      cases h

theorem eq_ok_of_toOption {ε α : Type} {x : Except ε α} {a : α} (h : x.toOption = some a) :
    x = .ok a := by
  cases x with
  | ok b =>
    obtain rfl := Option.some.inj h
    rfl
  | error e => cases h

section MapM

variable {ε α β γ : Type} {f : α → Except ε β} {as : List α} {bs : List β}

/-- What each step keeps of its item, all steps together keep of the list. -/
theorem map_of_mapM_eq_ok {g : α → γ} {k : β → γ} (hf : ∀ a b, f a = .ok b → k b = g a)
    (h : as.mapM f = .ok bs) : bs.map k = as.map g := by
  induction as generalizing bs with
  | nil =>
    obtain rfl := Except.ok.inj h
    rfl
  | cons a as ih =>
    rw [List.mapM_cons, bind_eq_ok_iff] at h
    obtain ⟨b, hb, h⟩ := h
    rw [bind_eq_ok_iff] at h
    obtain ⟨rest, hrest, h⟩ := h
    obtain rfl := Except.ok.inj h
    rw [List.map_cons, List.map_cons, hf a b hb, ih hrest]

theorem forall_of_mapM_eq_ok {P : β → Prop} (hf : ∀ a b, f a = .ok b → P b)
    (h : as.mapM f = .ok bs) : ∀ b ∈ bs, P b := by
  induction as generalizing bs with
  | nil =>
    obtain rfl := Except.ok.inj h
    intro b hb
    cases hb
  | cons a as ih =>
    rw [List.mapM_cons, bind_eq_ok_iff] at h
    obtain ⟨first, hfirst, h⟩ := h
    rw [bind_eq_ok_iff] at h
    obtain ⟨rest, hrest, h⟩ := h
    obtain rfl := Except.ok.inj h
    intro b hb
    rcases List.mem_cons.1 hb with rfl | hb
    · exact hf a b hfirst
    · exact ih hrest b hb

theorem getElem?_of_mapM_eq_ok (h : as.mapM f = .ok bs) {i : Nat} {a : α} (ha : as[i]? = some a) :
    ∃ b, bs[i]? = some b ∧ f a = .ok b := by
  induction as generalizing bs i with
  | nil => cases ha
  | cons c as ih =>
    rw [List.mapM_cons, bind_eq_ok_iff] at h
    obtain ⟨b, hb, h⟩ := h
    rw [bind_eq_ok_iff] at h
    obtain ⟨rest, hrest, h⟩ := h
    obtain rfl := Except.ok.inj h
    cases i with
    | zero =>
      obtain rfl := Option.some.inj ha
      exact ⟨b, rfl, hb⟩
    | succ i => exact ih hrest ha

theorem exists_mapM_eq_ok (hf : ∀ a ∈ as, ∃ b, f a = .ok b) : ∃ bs, as.mapM f = .ok bs := by
  induction as with
  | nil => exact ⟨[], rfl⟩
  | cons a as ih =>
    obtain ⟨b, hb⟩ := hf a List.mem_cons_self
    obtain ⟨rest, hrest⟩ := ih fun c hc => hf c (List.mem_cons_of_mem _ hc)
    refine ⟨b :: rest, ?_⟩
    rw [List.mapM_cons, hb, hrest]
    rfl

end MapM

namespace Action

def log (level : Level) (text : String) : Action Unit := ExceptT.lift (Logged.line level text)

/-- The outcome of a check that does not log. -/
def ofExcept {α : Type} (r : Except Error α) : Action α := ExceptT.mk (pure r)

@[simp] theorem run_ofExcept {α : Type} (r : Except Error α) : (ofExcept r).run = pure r := rfl

@[simp] theorem value_run_log (level : Level) (text : String) :
    (log level text).run.value = .ok () := rfl

/-- An action in two steps succeeds when both steps do. -/
theorem run_bind_eq_ok_iff {α β : Type} {x : Action α} {f : α → Action β} {b : β} :
    (x >>= f).run.value = .ok b ↔ ∃ a, x.run.value = .ok a ∧ (f a).run.value = .ok b := by
  rw [ExceptT.run_bind, Logged.value_bind]
  cases x.run.value with
  | ok a => simp
  | error e => simp

end Action

namespace Routine

/-- An action, which leaves the state alone. -/
def ofAction {s α : Type} (a : Action α) : Routine s α :=
  ExceptT.mk fun state => do return (← a.run, state)

/-- The outcome of a check that does not log. -/
def ofExcept {s α : Type} (r : Except Error α) : Routine s α := ofAction (.ofExcept r)

/-- A computation that cannot fail, which leaves the state alone. -/
def ofLogged {s α : Type} (x : Logged α) : Routine s α := ofAction (ExceptT.lift x)

def log {s : Type} (level : Level) (text : String) : Routine s Unit :=
  ofAction (Action.log level text)

/-- The outcome of a computation, whose failure does not end this one. -/
def attempt {s α : Type} (p : Routine s α) : Routine s (Except Error α) := ExceptT.lift p.run

/-- A computation on a part of the state. -/
def onPart {s t α : Type} (part : s → t) (replace : s → t → s) (p : Routine t α) :
    Routine s α :=
  ExceptT.mk fun state => do
    let (r, changed) ← p.run (part state)
    return (r, replace state changed)

/-- The outcome, the state and the log of a computation from a given state. -/
def runFrom {s α : Type} (p : Routine s α) (state : s) : Logged (Except Error α × s) :=
  p.run state

variable {s t α β : Type}

@[simp] theorem runFrom_pure (a : α) (state : s) :
    (pure a : Routine s α).runFrom state = pure (.ok a, state) := rfl

@[simp] theorem runFrom_throw (e : Error) (state : s) :
    (throw e : Routine s α).runFrom state = pure (.error e, state) := rfl

/-- After a failure nothing more is run. -/
theorem runFrom_bind (p : Routine s α) (f : α → Routine s β) (state : s) :
    (p >>= f).runFrom state = p.runFrom state >>= fun
      | (.ok a, reached) => (f a).runFrom reached
      | (.error e, reached) => pure (.error e, reached) := by
  change (p.run state >>= fun x => ExceptT.bindCont f x.1 x.2) = _
  refine congrArg (p.run state >>= ·) (funext fun x => ?_)
  rcases x with ⟨_ | _, _⟩ <;> rfl

@[simp] theorem runFrom_ofAction (a : Action α) (state : s) :
    (ofAction a : Routine s α).runFrom state = (·, state) <$> a.run := rfl

@[simp] theorem runFrom_ofExcept (r : Except Error α) (state : s) :
    (ofExcept r : Routine s α).runFrom state = pure (r, state) := rfl

@[simp] theorem runFrom_ofLogged (x : Logged α) (state : s) :
    (ofLogged x : Routine s α).runFrom state = (fun a => (.ok a, state)) <$> x := by
  rw [ofLogged, runFrom_ofAction, ExceptT.run_lift, Functor.map_map]

@[simp] theorem runFrom_get (state : s) :
    (get : Routine s s).runFrom state = pure (.ok state, state) := rfl

@[simp] theorem runFrom_set (state next : s) :
    (set next : Routine s PUnit).runFrom state = pure (.ok ⟨⟩, next) := rfl

@[simp] theorem value_runFrom_log (level : Level) (text : String) (state : s) :
    ((log level text : Routine s Unit).runFrom state).value = (.ok (), state) := rfl

@[simp] theorem runFrom_attempt (p : Routine s α) (state : s) :
    (attempt p).runFrom state = (fun (r, reached) => (.ok r, reached)) <$> p.runFrom state := rfl

@[simp] theorem runFrom_onPart (part : s → t) (replace : s → t → s) (p : Routine t α)
    (state : s) :
    (onPart part replace p).runFrom state =
      (fun (r, changed) => (r, replace state changed)) <$> p.runFrom (part state) := rfl

/-- A computation in two steps succeeds when both steps do. -/
theorem runFrom_bind_eq_ok_iff {p : Routine s α} {f : α → Routine s β} {state reached : s} {b : β} :
    ((p >>= f).runFrom state).value = (.ok b, reached) ↔
      ∃ a between, (p.runFrom state).value = (.ok a, between) ∧
        ((f a).runFrom between).value = (.ok b, reached) := by
  rw [runFrom_bind, Logged.value_bind]
  obtain ⟨outcome, between⟩ := (p.runFrom state).value
  cases outcome with
  | ok a =>
    constructor
    · intro h
      exact ⟨a, between, rfl, h⟩
    · rintro ⟨_, _, heq, h⟩
      cases heq
      exact h
  | error e => simp

/-- A check as the first step leaves the state alone. -/
theorem runFrom_ofExcept_bind_eq_ok_iff {r : Except Error α} {f : α → Routine s β}
    {state reached : s} {b : β} :
    ((ofExcept r >>= f).runFrom state).value = (.ok b, reached) ↔
      ∃ a, r = .ok a ∧ ((f a).runFrom state).value = (.ok b, reached) := by
  rw [runFrom_bind_eq_ok_iff]
  constructor
  · rintro ⟨a, _, hr, h⟩
    cases hr
    exact ⟨a, rfl, h⟩
  · rintro ⟨a, rfl, h⟩
    exact ⟨a, state, rfl, h⟩

end Routine

end TaskGraph
