import TaskGraph.Proofs.Routine.Triple
import TaskGraph.Server.Resolution

namespace TaskGraph

variable {ω : Type}

/-- A fetch that has ended, and how the attempt to fill in its answer came out. -/
structure EndedFetch where
  fetch : OpenFetch
  outcome : Except Error Unit

/-- Fetches for the first of the pending references, of which some have ended, each once. -/
structure Schedule (pending : List Reference) (started : List OpenFetch)
    (ended : List EndedFetch) : Prop where
  started_isPrefix : started.map (·.reference) <+: pending
  position_eq : ∀ (i : Nat) (f : OpenFetch), started[i]? = some f → f.position = i
  ended_started : ∀ x ∈ ended, x.fetch ∈ started
  ended_nodup : (ended.map (·.fetch.position)).Nodup

/-- The results that a run keeps of its fetches. -/
def resultsOf (started : List OpenFetch) (ended : List EndedFetch) : FetchResults :=
  started.map fun f => (ended.find? (·.fetch.position == f.position)).map (·.outcome)

namespace Schedule

variable {pending : List Reference} {started : List OpenFetch} {ended : List EndedFetch}

theorem nil (pending : List Reference) : Schedule pending [] [] where
  started_isPrefix := List.nil_prefix
  position_eq := by simp
  ended_started := by simp
  ended_nodup := by simp

theorem position_lt (h : Schedule pending started ended) {f : OpenFetch} (hf : f ∈ started) :
    f.position < started.length := by
  obtain ⟨i, hi⟩ := List.mem_iff_getElem?.1 hf
  have hposition := h.position_eq i f hi
  have hlt := (List.getElem?_eq_some_iff.1 hi).1
  omega

theorem getElem?_position (h : Schedule pending started ended) {f : OpenFetch}
    (hf : f ∈ started) : started[f.position]? = some f := by
  obtain ⟨i, hi⟩ := List.mem_iff_getElem?.1 hf
  rw [h.position_eq i f hi]
  exact hi

theorem eq_of_position_eq (h : Schedule pending started ended) {f g : OpenFetch}
    (hf : f ∈ started) (hg : g ∈ started) (heq : f.position = g.position) : f = g := by
  have hget := h.getElem?_position hf
  rw [heq, h.getElem?_position hg] at hget
  exact (Option.some.inj hget).symm

/-- When no reference is pending twice, no two fetches are for the same one. -/
theorem eq_of_reference_eq (h : Schedule pending started ended) (hnodup : pending.Nodup)
    {f g : OpenFetch} (hf : f ∈ started) (hg : g ∈ started) (heq : f.reference = g.reference) :
    f = g := by
  have hrefs := h.started_isPrefix.sublist.nodup hnodup
  have hplace : ∀ e ∈ started, (started.map (·.reference))[e.position]? = some e.reference := by
    intro e he
    rw [List.getElem?_map, h.getElem?_position he]
    rfl
  have hlt : f.position < (started.map (·.reference)).length := by
    have hlt := h.position_lt hf
    rwa [List.length_map]
  have hget := (hplace f hf).trans ((congrArg some heq).trans (hplace g hg).symm)
  exact h.eq_of_position_eq hf hg ((List.getElem?_inj hlt hrefs).1 hget)

theorem positions_nodup (h : Schedule pending started ended) :
    (started.map (·.position)).Nodup := by
  have hrange : started.map (·.position) = List.range started.length := by
    apply List.ext_getElem?
    intro i
    rw [List.getElem?_map]
    by_cases hlt : i < started.length
    · have hget := List.getElem?_eq_getElem hlt
      have hposition := h.position_eq i _ hget
      rw [hget, List.getElem?_range hlt, Option.map_some, hposition]
    · rw [List.getElem?_eq_none (by omega), List.getElem?_eq_none (by simp; omega)]
      rfl
  rw [hrange]
  exact List.nodup_range

theorem position_notMem_of_new (h : Schedule pending started ended) :
    started.length ∉ ended.map (·.fetch.position) := by
  intro hmem
  obtain ⟨x, hx, hposition⟩ := List.mem_map.1 hmem
  have hlt := h.position_lt (h.ended_started x hx)
  omega

/-- One more fetch is started. -/
theorem fetch (h : Schedule pending started ended) {ref : Reference} (reply : Reply)
    (hpending : started.map (·.reference) ++ [ref] <+: pending) :
    Schedule pending (started ++ [⟨started.length, ref, reply⟩]) ended where
  started_isPrefix := by simpa using hpending
  position_eq i f hi := by
    by_cases hlt : i < started.length
    · rw [List.getElem?_append_left hlt] at hi
      exact h.position_eq i f hi
    · rw [List.getElem?_append_right (by omega), List.getElem?_singleton] at hi
      split at hi
      · next hzero =>
        obtain rfl := Option.some.inj hi
        change started.length = i
        omega
      · cases hi
  ended_started x hx := List.mem_append_left _ (h.ended_started x hx)
  ended_nodup := h.ended_nodup

/-- One of the open fetches ends. -/
theorem settle (h : Schedule pending started ended) {f : OpenFetch} (hf : f ∈ started)
    (hopen : f.position ∉ ended.map (·.fetch.position)) (outcome : Except Error Unit) :
    Schedule pending started (ended ++ [⟨f, outcome⟩]) where
  started_isPrefix := h.started_isPrefix
  position_eq := h.position_eq
  ended_started := List.forall_mem_append.2 ⟨h.ended_started, List.forall_mem_singleton.2 hf⟩
  ended_nodup := by
    rw [List.map_append, List.nodup_append]
    refine ⟨h.ended_nodup, by simp, ?_⟩
    rintro p hp _ hlast rfl
    obtain rfl := List.mem_singleton.1 hlast
    exact hopen hp

theorem find?_eq_none (hopen : ∀ x ∈ ended, x.fetch.position ≠ p) :
    ended.find? (·.fetch.position == p) = none := by
  rw [List.find?_eq_none]
  intro x hx
  simpa using hopen x hx

theorem resultsOf_fetch (h : Schedule pending started ended) (ref : Reference) (reply : Reply) :
    resultsOf (started ++ [⟨started.length, ref, reply⟩]) ended =
      resultsOf started ended ++ [none] := by
  have hnone : ended.find? (·.fetch.position == started.length) = none := by
    apply find?_eq_none
    intro x hx heq
    exact h.position_notMem_of_new (heq ▸ List.mem_map_of_mem hx)
  simp [resultsOf, hnone]

theorem resultsOf_settle (h : Schedule pending started ended) {f : OpenFetch} (hf : f ∈ started)
    (hopen : f.position ∉ ended.map (·.fetch.position)) (outcome : Except Error Unit) :
    (resultsOf started ended).set f.position (some outcome) =
      resultsOf started (ended ++ [⟨f, outcome⟩]) := by
  have hnone : ended.find? (·.fetch.position == f.position) = none := by
    apply find?_eq_none
    intro x hx heq
    exact hopen (heq ▸ List.mem_map_of_mem hx)
  apply List.ext_getElem?
  intro i
  rw [List.getElem?_set, resultsOf, resultsOf, List.getElem?_map, List.getElem?_map,
    List.length_map]
  by_cases hi : f.position = i
  · subst hi
    rw [if_pos rfl, if_pos (h.position_lt hf), h.getElem?_position hf]
    simp [List.find?_append, hnone]
  · rw [if_neg hi]
    cases hget : started[i]? with
    | none => rfl
    | some g =>
      have hposition := h.position_eq i g hget
      simp [List.find?_append, hposition, hi]

theorem exists_of_mem_resultsOf {outcome : Except Error Unit}
    (h : some outcome ∈ resultsOf started ended) : ∃ x ∈ ended, x.outcome = outcome := by
  obtain ⟨f, -, hf⟩ := List.mem_map.1 h
  obtain ⟨x, hx, houtcome⟩ := Option.map_eq_some_iff.1 hf
  exact ⟨x, List.mem_of_find?_eq_some hx, houtcome⟩

/-- The result kept of a fetch that has ended is its outcome. -/
theorem mem_resultsOf (h : Schedule pending started ended) {f : OpenFetch} (hf : f ∈ started)
    (hended : f.position ∈ ended.map (·.fetch.position)) :
    ∃ outcome, ⟨f, outcome⟩ ∈ ended ∧ some outcome ∈ resultsOf started ended := by
  cases hfind : ended.find? (·.fetch.position == f.position) with
  | none =>
    obtain ⟨x, hx, hposition⟩ := List.mem_map.1 hended
    have hnot := List.find?_eq_none.1 hfind x hx
    simp [hposition] at hnot
  | some x =>
    have hx := List.mem_of_find?_eq_some hfind
    have hposition : x.fetch.position = f.position := by simpa using List.find?_some hfind
    have hfetch := h.eq_of_position_eq (h.ended_started x hx) hf hposition
    refine ⟨x.outcome, ?_, ?_⟩
    · rw [← hfetch]
      exact hx
    · exact List.mem_map.2 ⟨f, hf, by rw [hfind]; rfl⟩

end Schedule

theorem Reference.value_run_acceptAnswer (r : Reference) (answer : Except Error Response) :
    (r.acceptAnswer answer).run.value = (r.readAnswer answer).run.value := by
  unfold acceptAnswer
  rw [ExceptT.run_bind, Logged.value_bind]
  cases (r.readAnswer answer).run.value <;> rfl

/-- The interface that the answer to a fetch holds. -/
def OpenFetch.reading (f : OpenFetch) : Except Error RemoteInterface :=
  (f.reference.readAnswer f.reply.answer).run.value

/-- Everything that the end of a fetch can do. The end itself is noted in any case. -/
theorem OpenFetch.settle_cases (f : OpenFetch) (s : Registry × Link ω) :
    let noted : Link ω := ⟨s.2.state, s.2.exchanges ++ [.fetchDone f.reference.documentPath]⟩
    (∃ e, f.reading = .error e ∧ (f.settle.runFrom s).value = (.error e, s.1, noted)) ∨
    ∃ remote, f.reading = .ok remote ∧
      ((∃ e, s.1.fillIn f.reference.key remote = .error e ∧
          (f.settle.runFrom s).value = (.error e, s.1, noted)) ∨
        ∃ after, s.1.fillIn f.reference.key remote = .ok after ∧
          (f.settle.runFrom s).value = (.ok (), after, noted)) := by
  intro noted
  unfold settle
  rw [Routine.runFrom_bind, Logged.value_bind, value_runFrom_overLink, Link.value_runFrom_note]
  dsimp only
  rw [Routine.runFrom_bind, Logged.value_bind, Routine.runFrom_ofAction, Logged.value_map,
    f.reference.value_run_acceptAnswer, ← reading]
  cases hreading : f.reading with
  | error e => exact .inl ⟨e, rfl, rfl⟩
  | ok remote =>
    refine .inr ⟨remote, rfl, ?_⟩
    dsimp only
    rw [Routine.runFrom_bind, Routine.runFrom_get, pure_bind]
    dsimp only
    rw [Routine.runFrom_bind, Routine.runFrom_ofExcept, pure_bind]
    cases hfillIn : s.1.fillIn f.reference.key remote with
    | error e => exact .inl ⟨e, rfl, rfl⟩
    | ok after => exact .inr ⟨after, rfl, rfl⟩

theorem OpenFetch.link_runFrom_settle (f : OpenFetch) (s : Registry × Link ω) :
    (f.settle.runFrom s).value.2.2 =
      ⟨s.2.state, s.2.exchanges ++ [.fetchDone f.reference.documentPath]⟩ := by
  rcases f.settle_cases s with ⟨e, -, h⟩ | ⟨remote, -, ⟨e, -, h⟩ | ⟨after, -, h⟩⟩
  · rw [h]
  · rw [h]
  · rw [h]

/-- What one start and one end of a fetch preserve, in every state of a run. -/
structure RunInvariant (server : Server ω) (pending : List Reference)
    (I : List OpenFetch → List EndedFetch → Registry × Link ω → Prop) : Prop where
  fetch : ∀ started ended ref s, Schedule pending started ended → I started ended s →
    started.map (·.reference) ++ [ref] <+: pending →
    I (started ++ [⟨started.length, ref, (server.fetch ref.documentPath s.2.state).1⟩]) ended
      (s.1, ⟨(server.fetch ref.documentPath s.2.state).2,
        s.2.exchanges ++ [.fetchSent ref.documentPath]⟩)
  settle : ∀ started ended f s, Schedule pending started ended → I started ended s →
    f ∈ started → f.position ∉ ended.map (·.fetch.position) →
    I started (ended ++ [⟨f, (f.settle.runFrom s).value.1⟩]) (f.settle.runFrom s).value.2

section Run

open Routine

variable {server : Server ω} {pending : List Reference} {delivery : Delivery}
  {I : List OpenFetch → List EndedFetch → Registry × Link ω → Prop}

/-- The invariant of both loops. Between two steps no failure counts yet. -/
structure Underway (delivery : Delivery) (pending : List Reference)
    (I : List OpenFetch → List EndedFetch → Registry × Link ω → Prop) (started : List OpenFetch)
    (ended : List EndedFetch) (results : FetchResults) (s : Registry × Link ω) : Prop where
  schedule : Schedule pending started ended
  holds : I started ended s
  results_eq : results = resultsOf started ended
  delivered : ∀ x ∈ delivery.delivered results, x = .ok ()

/-- What is known when a failure has ended the run. -/
def Aborted (pending : List Reference)
    (I : List OpenFetch → List EndedFetch → Registry × Link ω → Prop) (e : Error)
    (s : Registry × Link ω) : Prop :=
  ∃ started ended, Schedule pending started ended ∧ I started ended s ∧
    ∃ x ∈ ended, x.outcome = .error e

theorem conclude_triple (hinv : RunInvariant server pending I) (delivery : Delivery)
    {started : List OpenFetch} {ended : List EndedFetch} {f : OpenFetch} (hf : f ∈ started)
    (hopen : f.position ∉ ended.map (·.fetch.position)) :
    Triple (fun s => Schedule pending started ended ∧ I started ended s)
      (f.conclude delivery (resultsOf started ended))
      (fun results s => ∃ outcome,
        Underway delivery pending I started (ended ++ [⟨f, outcome⟩]) results s)
      (Aborted pending I) := by
  rintro s ⟨hschedule, hI⟩
  have hsettled := hinv.settle started ended f s hschedule hI hf hopen
  unfold OpenFetch.conclude
  rw [runFrom_bind, runFrom_attempt, Logged.value_bind, Logged.value_map]
  generalize (f.settle.runFrom s).value = reached at hsettled ⊢
  obtain ⟨outcome, after⟩ := reached
  dsimp only at hsettled ⊢
  have hlater := hschedule.settle hf hopen outcome
  rw [hschedule.resultsOf_settle hf hopen outcome, runFrom_bind, Logged.value_bind]
  have hchecks := forM_ofExcept_cases
    (delivery.delivered (resultsOf started (ended ++ [⟨f, outcome⟩]))) after
  rcases hchecks with ⟨hall, hvalue⟩ | ⟨e, hmem, hvalue⟩
  · rw [hvalue]
    exact ⟨outcome, hlater, hsettled, rfl, hall⟩
  · rw [hvalue]
    have hended := Schedule.exists_of_mem_resultsOf (Delivery.mem_of_mem_delivered hmem)
    exact ⟨started, _, hlater, hsettled, hended⟩

/-- While fetches are started, those that have ended are the ones that were answered at once. -/
def Starting (delivery : Delivery) (pending : List Reference)
    (I : List OpenFetch → List EndedFetch → Registry × Link ω → Prop) (rest : List Reference)
    (made : List OpenFetch × FetchResults) (s : Registry × Link ω) : Prop :=
  ∃ ended, Underway delivery pending I made.1 ended made.2 s ∧
    made.1.map (·.reference) ++ rest = pending ∧
    ∀ f ∈ made.1, f.reply.round = 0 ↔ f.position ∈ ended.map (·.fetch.position)

theorem start_triple (hinv : RunInvariant server pending I) (delivery : Delivery)
    (ref : Reference) (rest : List Reference) (made : List OpenFetch × FetchResults) :
    Triple (Starting delivery pending I (ref :: rest) made)
      (OpenFetch.start server delivery made ref) (Starting delivery pending I rest)
      (Aborted pending I) := by
  rintro s ⟨ended, hunderway, hrest, hround⟩
  obtain ⟨started, results⟩ := made
  obtain ⟨hschedule, hI, hresults, hdelivered⟩ := hunderway
  dsimp only at hrest hround hschedule hI hresults hdelivered
  subst hresults
  have hpending : started.map (·.reference) ++ [ref] <+: pending := by
    rw [← hrest]
    simp
  have hfetched := hinv.fetch started ended ref s hschedule hI hpending
  unfold OpenFetch.start
  dsimp only
  rw [runFrom_bind, Logged.value_bind, value_runFrom_overLink, Link.value_runFrom_fetch]
  dsimp only
  generalize (server.fetch ref.documentPath s.2.state).1 = reply at hfetched ⊢
  have hmade := hschedule.fetch reply hpending
  have hmem : (⟨started.length, ref, reply⟩ : OpenFetch) ∈
      started ++ [⟨started.length, ref, reply⟩] := by simp
  have hnew := hschedule.position_notMem_of_new
  have hleft : (started ++ [⟨started.length, ref, reply⟩] : List OpenFetch).map (·.reference) ++
      rest = pending := by
    rw [← hrest]
    simp
  rw [← hschedule.resultsOf_fetch ref reply]
  split
  · next hzero =>
    have hconclude := conclude_triple hinv delivery hmem hnew
    refine (hconclude.bind fun later => Triple.pure_of ?_) _ ⟨hmade, hfetched⟩
    rintro after ⟨outcome, hafter⟩
    refine ⟨_, hafter, hleft, ?_⟩
    intro f hf
    rw [List.map_append, List.mem_append]
    rcases List.mem_append.1 hf with hf | hf
    · have hlt := hschedule.position_lt hf
      have hne : f.position ≠ started.length := by omega
      simp [hround f hf, hne]
    · obtain rfl := List.mem_singleton.1 hf
      simp [hzero]
  · next hlate =>
    refine ⟨ended, ⟨hmade, hfetched, rfl, ?_⟩, hleft, ?_⟩
    · rw [hschedule.resultsOf_fetch, Delivery.delivered_concat_none]
      exact hdelivered
    · intro f hf
      rcases List.mem_append.1 hf with hf | hf
      · exact hround f hf
      · obtain rfl := List.mem_singleton.1 hf
        exact ⟨fun hzero => absurd hzero hlate, fun hended => absurd hended hnew⟩

/-- While answers arrive, the fetches that have not ended are the ones that are still to come. -/
def Arriving (delivery : Delivery) (pending : List Reference)
    (I : List OpenFetch → List EndedFetch → Registry × Link ω → Prop) (started : List OpenFetch)
    (rest : List OpenFetch) (results : FetchResults) (s : Registry × Link ω) : Prop :=
  ∃ ended, Underway delivery pending I started ended results s ∧ (rest.map (·.position)).Nodup ∧
    (∀ f ∈ rest, f ∈ started ∧ f.position ∉ ended.map (·.fetch.position)) ∧
    ∀ f ∈ started, f ∈ rest ∨ f.position ∈ ended.map (·.fetch.position)

theorem arrive_triple (hinv : RunInvariant server pending I) (delivery : Delivery)
    (started : List OpenFetch) (f : OpenFetch) (rest : List OpenFetch) (results : FetchResults) :
    Triple (Arriving delivery pending I started (f :: rest) results) (f.conclude delivery results)
      (Arriving delivery pending I started rest) (Aborted pending I) := by
  rintro s ⟨ended, ⟨hschedule, hI, rfl, -⟩, hnodup, hrest, hcover⟩
  obtain ⟨hf, hopen⟩ := hrest f List.mem_cons_self
  have hconclude := conclude_triple hinv delivery hf hopen
  refine hconclude.weaken (fun _ h => h) ?_ (fun _ _ h => h) s ⟨hschedule, hI⟩
  rintro later after ⟨outcome, hafter⟩
  obtain ⟨hhead, htail⟩ := List.nodup_cons.1 hnodup
  refine ⟨_, hafter, htail, ?_, ?_⟩
  · intro g hg
    obtain ⟨hstarted, hgopen⟩ := hrest g (List.mem_cons_of_mem _ hg)
    refine ⟨hstarted, ?_⟩
    have hne : g.position ≠ f.position := by
      intro heq
      exact hhead (List.mem_map.2 ⟨g, hg, heq⟩)
    simp only [List.map_append, List.mem_append, not_or]
    exact ⟨hgopen, by simpa using hne⟩
  · intro g hg
    rw [List.map_append, List.mem_append]
    rcases hcover g hg with hmem | hended
    · rcases List.mem_cons.1 hmem with rfl | hmem
      · exact .inr (.inr (by simp))
      · exact .inl hmem
    · exact .inr (.inl hended)

/-- The fetches that are still to come when all have been started. -/
theorem arriving_of_starting {made : List OpenFetch × FetchResults} {s : Registry × Link ω}
    (h : Starting delivery pending I [] made s) :
    Arriving delivery pending I made.1 (arrivalOrder (·.reply.round) made.1) made.2 s := by
  obtain ⟨ended, hunderway, -, hround⟩ := h
  have hperm := arrivalOrder_perm (·.reply.round) made.1
  have hmem : ∀ f, f ∈ arrivalOrder (·.reply.round) made.1 ↔
      f ∈ made.1 ∧ 0 < f.reply.round := by
    intro f
    rw [hperm.mem_iff, List.mem_filter, decide_eq_true_eq]
  refine ⟨ended, hunderway, ?_, ?_, ?_⟩
  · refine ((hperm.map _).nodup_iff).2 ?_
    exact (List.filter_sublist.map _).nodup hunderway.schedule.positions_nodup
  · intro f hf
    obtain ⟨hstarted, hpos⟩ := (hmem f).1 hf
    refine ⟨hstarted, ?_⟩
    rw [← hround f hstarted]
    omega
  · intro f hf
    rw [hmem, ← hround f hf]
    by_cases hzero : f.reply.round = 0
    · exact .inr hzero
    · exact .inl ⟨hf, by omega⟩

/-- What is known when a run has gone through all its fetches. -/
def Completed (pending : List Reference)
    (I : List OpenFetch → List EndedFetch → Registry × Link ω → Prop) (s : Registry × Link ω) :
    Prop :=
  ∃ started ended, Schedule pending started ended ∧ I started ended s ∧
    started.map (·.reference) = pending ∧ ∀ f ∈ started, ⟨f, .ok ()⟩ ∈ ended

theorem completed_of_arriving {started : List OpenFetch} {results : FetchResults}
    {s : Registry × Link ω} (h : Arriving delivery pending I started [] results s)
    (hall : started.map (·.reference) = pending) : Completed pending I s := by
  obtain ⟨ended, ⟨hschedule, hI, rfl, hdelivered⟩, -, -, hcover⟩ := h
  have hended : ∀ f ∈ started, f.position ∈ ended.map (·.fetch.position) := by
    intro f hf
    rcases hcover f hf with hmem | hended
    · cases hmem
    · exact hended
  have hsome : ∀ x ∈ resultsOf started ended, x.isSome := by
    intro x hx
    obtain ⟨f, hf, rfl⟩ := List.mem_map.1 hx
    obtain ⟨y, hy, hposition⟩ := List.mem_map.1 (hended f hf)
    rw [Option.isSome_map, List.find?_isSome]
    exact ⟨y, hy, by simpa using hposition⟩
  refine ⟨started, ended, hschedule, hI, hall, ?_⟩
  intro f hf
  obtain ⟨outcome, hmem, hresult⟩ := hschedule.mem_resultsOf hf (hended f hf)
  have hok := hdelivered outcome (Delivery.mem_delivered_of_ended delivery hsome hresult)
  exact hok ▸ hmem

theorem resolve_triple {r : Registry} {link : Link ω}
    (hinv : RunInvariant server r.unresolved I) (hI : I [] [] (r, link)) :
    Triple (fun s => s = (r, link)) (Registry.resolve server)
      (fun n s => n = r.unresolved.length ∧ Completed r.unresolved I s)
      (Aborted r.unresolved I) := by
  rintro s rfl
  unfold Registry.resolve
  rw [runFrom_bind, runFrom_get, pure_bind]
  dsimp only
  generalize Delivery.ofCount r.unresolved.length = delivery
  have hstarting : Starting delivery r.unresolved I r.unresolved ([], []) (r, link) :=
    ⟨[], ⟨.nil _, hI, rfl, by simp⟩, rfl, by simp⟩
  have hstart := triple_foldlM (start_triple hinv delivery) r.unresolved ([], [])
  refine (hstart.bind fun made => ?_) _ hstarting
  intro s hmade
  have harrive := triple_foldlM (arrive_triple hinv delivery made.1)
    (arrivalOrder (·.reply.round) made.1) made.2
  refine (harrive.bind fun results => Triple.pure_of ?_) _ (arriving_of_starting hmade)
  intro last hlast
  obtain ⟨ended, -, hall, -⟩ := hmade
  rw [List.append_nil] at hall
  exact ⟨rfl, completed_of_arriving hlast hall⟩

/-- The rule for a run that fills in references. What its fetches preserve holds at the end, after
    success and after failure. A success means that every pending reference was fetched and every
    fetch ended well; a failure is the outcome of a fetch. -/
theorem Registry.resolve_follows {r : Registry} (hinv : RunInvariant server r.unresolved I)
    (link : Link ω) (hI : I [] [] (r, link)) :
    ∃ started ended, Schedule r.unresolved started ended ∧
      I started ended ((Registry.resolve server).runFrom (r, link)).value.2 ∧
      (∀ n, ((Registry.resolve server).runFrom (r, link)).value.1 = .ok n →
        n = r.unresolved.length ∧ started.map (·.reference) = r.unresolved ∧
          ∀ f ∈ started, ⟨f, .ok ()⟩ ∈ ended) ∧
      (∀ e, ((Registry.resolve server).runFrom (r, link)).value.1 = .error e →
        ∃ x ∈ ended, x.outcome = .error e) := by
  have hends := resolve_triple hinv hI (r, link) rfl
  generalize ((Registry.resolve server).runFrom (r, link)).value = reached at hends
  obtain ⟨outcome, after⟩ := reached
  cases outcome with
  | ok n =>
    obtain ⟨hn, started, ended, hschedule, hafter, hall, hok⟩ := hends
    refine ⟨started, ended, hschedule, hafter, ?_, fun e he => by cases he⟩
    rintro m hm
    obtain rfl := Except.ok.inj hm
    exact ⟨hn, hall, hok⟩
  | error e =>
    obtain ⟨started, ended, hschedule, hafter, x, hx, houtcome⟩ := hends
    refine ⟨started, ended, hschedule, hafter, fun n hn => (by cases hn), ?_⟩
    rintro e' he'
    obtain rfl := Except.error.inj he'
    exact ⟨x, hx, houtcome⟩

end Run

end TaskGraph
