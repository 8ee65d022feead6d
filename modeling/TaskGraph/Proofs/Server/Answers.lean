import TaskGraph.Server.Submission

namespace TaskGraph

open Json (Value)

/-- The server says that the object is there already: by its status, or by a code together with an
    error text. -/
def Response.Conflicts (r : Response) : Prop :=
  r.status = 409 ∨ (∃ spelling, r.body.get? "code" = some (.num (.int 6 spelling))) ∧
    ∃ text, r.body.get? "error" = some (.str text) ∧ Text.occurs "already exists" text

/-- The text that stands in for an error without one does not say so. -/
theorem occurs_unknown : Text.occurs "already exists" "unknown error" = false := rfl

theorem Response.errorText?_any_iff {r : Response} :
    r.errorText?.any (Text.occurs "already exists") ↔
      ∃ text, r.body.get? "error" = some (.str text) ∧ Text.occurs "already exists" text := by
  unfold errorText?
  cases r.body.get? "error" with
  | none => simp
  | some e => cases e <;> simp [Value.str?, occurs_unknown]

theorem isConflict_iff {r : Response} : SubmitOutcome.isConflict r ↔ r.Conflicts := by
  unfold SubmitOutcome.isConflict Response.Conflicts
  rw [Bool.or_eq_true, Bool.and_eq_true, beq_iff_eq]
  refine or_congr_right (and_congr ?_ Response.errorText?_any_iff)
  split
  · next code spelling hget =>
    rw [hget, beq_iff_eq]
    constructor
    · rintro rfl
      exact ⟨spelling, rfl⟩
    · rintro ⟨_, hsame⟩
      cases hsame
      rfl
  · next hother =>
    constructor
    · intro h
      cases h
    · rintro ⟨spelling, hget⟩
      exact absurd hget (hother 6 spelling)

namespace SubmitStatus

/-- The object is not on the server, for a reason that is given. -/
def Failed (s : SubmitStatus) : Prop := ∃ reason, s.outcome = .failed reason

/-- What is listed of an object that failed: the parts of its identity, and the reason. -/
def failure? (s : SubmitStatus) : Option String :=
  match s.outcome with
  | .failed reason =>
    some ("Error while registering " ++ (s.id.resourceType.name ++ " " ++ s.id.project ++ "/" ++
      s.id.domain ++ "/" ++ s.id.name ++ "@" ++ s.id.version) ++ ": " ++ reason)
  | _ => none

theorem failure?_eq_none_iff {s : SubmitStatus} : s.failure? = none ↔ ¬s.Failed := by
  unfold failure? Failed
  cases s.outcome <;> simp

end SubmitStatus

/-- What is listed of the objects that failed, in the order of the statuses. -/
def failures (statuses : List SubmitStatus) : List String :=
  statuses.filterMap SubmitStatus.failure?

theorem failures_eq (statuses : List SubmitStatus) :
    (statuses.filter (·.outcome.isFailure)).map SubmitStatus.text = failures statuses := by
  induction statuses with
  | nil => rfl
  | cons s rest ih =>
    obtain ⟨id, outcome⟩ := s
    cases outcome with
    | failed reason => exact congrArg (_ :: ·) ih
    | registered | alreadyRegistered => exact ih

theorem failures_eq_nil_iff {statuses : List SubmitStatus} :
    failures statuses = [] ↔ ∀ s ∈ statuses, ¬s.Failed := by
  rw [failures, List.filterMap_eq_nil_iff]
  exact forall₂_congr fun _ _ => SubmitStatus.failure?_eq_none_iff

theorem failures_ne_nil_iff {statuses : List SubmitStatus} :
    failures statuses ≠ [] ↔ ∃ s ∈ statuses, s.Failed := by
  simp [failures_eq_nil_iff]

/-- The object was taken: the answer is a success with an empty object. -/
def Response.Succeeds (r : Response) : Prop := 200 ≤ r.status ∧ r.status < 300 ∧ r.body = .obj []

theorem Response.succeeded_iff {r : Response} : r.succeeded ↔ 200 ≤ r.status ∧ r.status < 300 := by
  simp [succeeded]

theorem Response.succeeds_iff {r : Response} : r.succeeded && r.body == .obj [] ↔ r.Succeeds := by
  rw [Bool.and_eq_true, beq_iff_eq, succeeded_iff, and_assoc]
  rfl

/-- Every answer is a conflict, a success with an empty object, or a failure. -/
theorem SubmitOutcome.ofAnswer_cases (answer : Except Error Response) :
    (∃ r, answer = .ok r ∧ r.Conflicts ∧ ofAnswer answer = .alreadyRegistered) ∨
    (∃ r, answer = .ok r ∧ ¬r.Conflicts ∧ r.Succeeds ∧ ofAnswer answer = .registered) ∨
    (∃ r, answer = .ok r ∧ ¬r.Conflicts ∧ ¬r.Succeeds ∧
      ofAnswer answer = .failed ("HTTP " ++ toString r.status ++ ": " ++ r.body.render)) ∨
    ∃ e, answer = .error e ∧ ofAnswer answer = .failed e.message := by
  cases answer with
  | error e => exact .inr (.inr (.inr ⟨e, rfl, rfl⟩))
  | ok r =>
    rw [ofAnswer, ofResponse]
    by_cases hconflicts : r.Conflicts
    · rw [if_pos (isConflict_iff.2 hconflicts)]
      exact .inl ⟨r, rfl, hconflicts, rfl⟩
    · rw [if_neg (mt isConflict_iff.1 hconflicts)]
      by_cases hsucceeds : r.Succeeds
      · rw [if_pos (Response.succeeds_iff.2 hsucceeds)]
        exact .inr (.inl ⟨r, rfl, hconflicts, hsucceeds, rfl⟩)
      · rw [if_neg (mt Response.succeeds_iff.1 hsucceeds)]
        exact .inr (.inr (.inl ⟨r, rfl, hconflicts, hsucceeds, rfl⟩))

/-- What a status says of the answer to its hand-in. -/
structure SubmitStatus.Reports (status : SubmitStatus) (answer : Except Error Response) :
    Prop where
  registered_iff : status.outcome = .registered ↔ ∃ r, answer = .ok r ∧
    200 ≤ r.status ∧ r.status < 300 ∧ r.body = .obj [] ∧ ¬r.Conflicts
  alreadyRegistered_iff : status.outcome = .alreadyRegistered ↔ ∃ r, answer = .ok r ∧ r.Conflicts
  failed_iff : status.Failed ↔ ∀ r, answer = .ok r →
    ¬r.Conflicts ∧ ¬(200 ≤ r.status ∧ r.status < 300 ∧ r.body = .obj [])
  /-- The reason is the response as a text, or the message of what kept it away. -/
  reason_eq : ∀ reason, status.outcome = .failed reason →
    (∀ r, answer = .ok r → reason = "HTTP " ++ toString r.status ++ ": " ++ r.body.render) ∧
      ∀ e, answer = .error e → reason = e.message

theorem SubmitStatus.reports_ofAnswer (id : Identifier) (answer : Except Error Response) :
    Reports ⟨id, .ofAnswer answer⟩ answer := by
  rcases SubmitOutcome.ofAnswer_cases answer with ⟨r, rfl, hconflicts, houtcome⟩ |
    ⟨r, rfl, hconflicts, ⟨hleast, hmost, hempty⟩, houtcome⟩ |
    ⟨r, rfl, hconflicts, hfails, houtcome⟩ | ⟨e, rfl, houtcome⟩
  · constructor <;> simp [houtcome, hconflicts, Failed]
  · constructor <;> simp [houtcome, hconflicts, hleast, hmost, hempty, Failed]
  · rw [Response.Succeeds] at hfails
    constructor
    case registered_iff =>
      refine iff_of_false (by simp [houtcome]) ?_
      rintro ⟨_, ⟨⟩, hleast, hmost, hempty, -⟩
      exact hfails ⟨hleast, hmost, hempty⟩
    case failed_iff =>
      refine iff_of_true ⟨_, houtcome⟩ ?_
      rintro _ ⟨⟩
      exact ⟨hconflicts, hfails⟩
    all_goals simp [houtcome, hconflicts]
  · constructor <;> simp [houtcome, Failed]

namespace Reply

/-- The server has taken the object and says so. -/
def Creates (r : Reply) : Prop := r.answer = .ok ⟨200, .obj []⟩

def Conflicts (r : Reply) : Prop := ∃ response, r.answer = .ok response ∧ response.Conflicts

/-- There is no response, or one that is neither a conflict nor a success with an empty object. -/
def Fails (r : Reply) : Prop :=
  ∀ response, r.answer = .ok response → ¬response.Conflicts ∧ ¬response.Succeeds

theorem outcome_of_creates {r : Reply} (h : r.Creates) :
    SubmitOutcome.ofAnswer r.answer = .registered := by
  rw [Creates] at h
  rw [h]
  rfl

theorem outcome_of_conflicts {r : Reply} (h : r.Conflicts) :
    SubmitOutcome.ofAnswer r.answer = .alreadyRegistered := by
  obtain ⟨response, hanswer, hconflicts⟩ := h
  rw [hanswer, SubmitOutcome.ofAnswer, SubmitOutcome.ofResponse,
    if_pos (isConflict_iff.2 hconflicts)]

theorem Conflicts.not_fails {r : Reply} (h : r.Conflicts) : ¬r.Fails := by
  obtain ⟨response, hanswer, hconflicts⟩ := h
  exact fun hfails => (hfails response hanswer).1 hconflicts

theorem Creates.not_fails {r : Reply} (h : r.Creates) : ¬r.Fails :=
  fun hfails => (hfails _ h).2 ⟨by decide, by decide, rfl⟩

end Reply

namespace OpenSubmit

theorem reports_status (call : OpenSubmit) : call.status.Reports call.reply.answer :=
  SubmitStatus.reports_ofAnswer call.submission.id call.reply.answer

/-- The hand-ins that fail are those in which the server fails. -/
theorem failed_status_iff {call : OpenSubmit} : call.status.Failed ↔ call.reply.Fails :=
  call.reports_status.failed_iff

end OpenSubmit

end TaskGraph
