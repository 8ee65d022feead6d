import TaskGraph.Proofs.Lists.Correspondence
import TaskGraph.Proofs.Registry.Reachable
import Mathlib.Data.List.Induction
import Mathlib.Data.List.Nodup

namespace TaskGraph

open Json (Value)

variable {ω : Type}

/-- Where the document of an object of this kind keeps its declaration. -/
def ReferenceKind.place : ReferenceKind → List String
  | task => ["closure", "compiled_task", "template"]
  | launchPlan => ["closure"]

/-- Whether a document gives a reference this interface. -/
def Reference.Reads (r : Reference) (body : Value) (remote : RemoteInterface) : Prop :=
  ∃ document, body.at? r.kind.place = some document ∧
    RemoteInterface.ofDocument r.kind document = .ok remote

/-- A response with a success status and without an error field. -/
structure Response.Clean (r : Response) : Prop where
  status_ge : 200 ≤ r.status
  status_lt : r.status < 300
  no_error : r.body.get? "error" = none

theorem Response.clean_iff {r : Response} : r.Clean ↔ r.errorText? = none ∧ r.succeeded := by
  unfold errorText? succeeded
  rw [Option.map_eq_none_iff, Bool.and_eq_true, decide_eq_true_eq, decide_eq_true_eq]
  constructor
  · rintro ⟨hge, hlt, herror⟩
    exact ⟨herror, hge, hlt⟩
  · rintro ⟨herror, hge, hlt⟩
    exact ⟨hge, hlt, herror⟩

theorem Reference.value_run_readAnswer (r : Reference) {response : Response}
    (herror : response.errorText? = none) (hstatus : response.succeeded) :
    (r.readAnswer (.ok response)).run.value =
      match response.body.at? r.kind.place with
      | some document => RemoteInterface.ofDocument r.kind document
      | none => .error (.missingReference r.id.text (match r.kind with
        | .task => .noTemplate
        | .launchPlan => .noClosure)) := by
  unfold readAnswer
  rw [ExceptT.run_bind]
  simp only [Action.run_ofExcept, pure_bind]
  rw [herror]
  simp only [hstatus]
  cases r.kind with
  | task =>
    simp only [ReferenceKind.place]
    cases response.body.at? ["closure", "compiled_task", "template"] <;> rfl
  | launchPlan =>
    simp only [ReferenceKind.place]
    cases response.body.at? ["closure"] <;> rfl

theorem Reference.clean_of_readAnswer {r : Reference} {response : Response}
    {remote : RemoteInterface} (h : (r.readAnswer (.ok response)).run.value = .ok remote) :
    response.Clean := by
  rw [Response.clean_iff]
  unfold readAnswer at h
  rw [Action.run_bind_eq_ok_iff] at h
  obtain ⟨_, hresponse, h⟩ := h
  obtain rfl := Except.ok.inj hresponse
  cases herror : response.errorText? with
  | some message =>
    rw [herror] at h
    cases h
  | none =>
    rw [herror] at h
    cases hstatus : response.succeeded with
    | true => exact ⟨rfl, rfl⟩
    | false =>
      rw [hstatus] at h
      cases h

/-- An interface comes from the document of a clean response, and from nothing else. -/
theorem Reference.readAnswer_eq_ok_iff {r : Reference} {answer : Except Error Response}
    {remote : RemoteInterface} : (r.readAnswer answer).run.value = .ok remote ↔
      ∃ response, answer = .ok response ∧ response.Clean ∧ r.Reads response.body remote := by
  have hreads : ∀ response : Response, response.Clean →
      ((r.readAnswer (.ok response)).run.value = .ok remote ↔ r.Reads response.body remote) := by
    intro response hclean
    obtain ⟨herror, hstatus⟩ := Response.clean_iff.1 hclean
    rw [r.value_run_readAnswer herror hstatus, Reads]
    cases response.body.at? r.kind.place with
    | none => simp
    | some document => simp
  constructor
  · intro h
    cases answer with
    | error e => cases h
    | ok response =>
      have hclean := clean_of_readAnswer h
      exact ⟨response, rfl, hclean, (hreads response hclean).1 h⟩
  · rintro ⟨response, rfl, hclean, h⟩
    exact (hreads response hclean).2 h

theorem Reference.Reads.unique {r : Reference} {body : Value} {remote remote' : RemoteInterface}
    (h : r.Reads body remote) (h' : r.Reads body remote') : remote = remote' := by
  obtain ⟨document, hplace, hread⟩ := h
  obtain ⟨document', hplace', hread'⟩ := h'
  rw [hplace] at hplace'
  obtain rfl := Option.some.inj hplace'
  rw [hread] at hread'
  exact Except.ok.inj hread'

namespace Exchange

def fetchSent? : Exchange → Option String
  | fetchSent path => some path
  | _ => none

def fetchDone? : Exchange → Option String
  | fetchDone path => some path
  | _ => none

def isFetch : Exchange → Bool
  | fetchSent _ | fetchDone _ => true
  | _ => false

end Exchange

/-- Exchanges that are nothing but fetches: of these paths, of which those have ended. -/
structure Fetched (events : List Exchange) (sent done : List String) : Prop where
  isFetch : ∀ e ∈ events, e.isFetch
  sent_eq : events.filterMap Exchange.fetchSent? = sent
  done_eq : events.filterMap Exchange.fetchDone? = done

theorem Fetched.nil : Fetched [] [] [] := ⟨by simp, rfl, rfl⟩

theorem Fetched.send {events : List Exchange} {sent done : List String}
    (h : Fetched events sent done) (path : String) :
    Fetched (events ++ [.fetchSent path]) (sent ++ [path]) done where
  isFetch := List.forall_mem_append.2 ⟨h.isFetch, List.forall_mem_singleton.2 rfl⟩
  sent_eq := by rw [List.filterMap_append, h.sent_eq]; rfl
  done_eq := by rw [List.filterMap_append, h.done_eq]; simp [Exchange.fetchDone?]

theorem Fetched.finish {events : List Exchange} {sent done : List String}
    (h : Fetched events sent done) (path : String) :
    Fetched (events ++ [.fetchDone path]) sent (done ++ [path]) where
  isFetch := List.forall_mem_append.2 ⟨h.isFetch, List.forall_mem_singleton.2 rfl⟩
  sent_eq := by rw [List.filterMap_append, h.sent_eq]; simp [Exchange.fetchSent?]
  done_eq := by rw [List.filterMap_append, h.done_eq]; rfl

/-- The fetches for references that are asked for one after the other, and the server after. -/
def Server.askAll (server : Server ω) (refs : List Reference) (state : ω) : List OpenFetch × ω :=
  refs.foldl
    (fun (fetches, state) ref =>
      let (reply, state) := server.fetch ref.documentPath state
      (fetches ++ [⟨fetches.length, ref, reply⟩], state))
    ([], state)

theorem Server.askAll_concat (server : Server ω) (refs : List Reference) (ref : Reference)
    (state : ω) :
    server.askAll (refs ++ [ref]) state =
      let (fetches, between) := server.askAll refs state
      let (reply, last) := server.fetch ref.documentPath between
      (fetches ++ [⟨fetches.length, ref, reply⟩], last) := by
  simp only [askAll, List.foldl_append, List.foldl_cons, List.foldl_nil]

/-- What fetches that have ended make of a reference: an answer to its own fetch fills it in, and
    without one that can be read it stays as it is. -/
inductive Reference.Settled (ended : List OpenFetch) (ref : Reference) : Reference → Prop where
  | untouched : (∀ f ∈ ended, f.reference = ref → ∃ e, f.reading = .error e) →
      Settled ended ref ref
  | filled {f : OpenFetch} {response : Response} {remote : RemoteInterface} : f ∈ ended →
      f.reference = ref → ref.interface = none → f.reply.answer = .ok response →
      response.Clean → ref.Reads response.body remote →
      Settled ended ref { ref with interface := some remote }

theorem Reference.Settled.key_eq {ended : List OpenFetch} {ref now : Reference}
    (h : ref.Settled ended now) : now.key = ref.key := by
  cases h with
  | untouched => rfl
  | filled => rfl

/-- A reference that is still open has been given nothing. -/
theorem Reference.Settled.of_open {ended : List OpenFetch} {ref now : Reference}
    (h : ref.Settled ended now) (hopen : now.interface = none) :
    now = ref ∧ ∀ f ∈ ended, f.reference = ref → ∃ e, f.reading = .error e := by
  cases h with
  | untouched hfailed => exact ⟨rfl, hfailed⟩
  | filled => cases hopen

/-- A fetch that gives a reference nothing leaves it as the earlier ones did. -/
theorem Reference.Settled.concat {ended : List OpenFetch} {ref now : Reference}
    (h : ref.Settled ended now) {f : OpenFetch}
    (hf : f.reference = ref → ∃ e, f.reading = .error e) : ref.Settled (ended ++ [f]) now := by
  cases h with
  | untouched hfailed =>
    refine .untouched fun g hg hreference => ?_
    rcases List.mem_append.1 hg with hg | hg
    · exact hfailed g hg hreference
    · obtain rfl := List.mem_singleton.1 hg
      exact hf hreference
  | filled hmem hreference hopen hanswer hclean hreads =>
    exact .filled (List.mem_append_left _ hmem) hreference hopen hanswer hclean hreads

namespace Registry

theorem unresolved_nodup {r : Registry} (hkeys : (r.references.map Reference.key).Nodup) :
    r.unresolved.Nodup :=
  List.filter_sublist.nodup (List.Nodup.of_map _ hkeys)

theorem mem_unresolved_iff {r : Registry} {ref : Reference} :
    ref ∈ r.unresolved ↔ ref ∈ r.references ∧ ref.interface = none := by
  unfold unresolved Reference.isResolved
  rw [List.mem_filter, Bool.not_eq_true', Option.isSome_eq_false_iff, Option.isNone_iff_eq_none]

/-- An answer that can be read goes to the reference that was asked for, which is still open, and
    to no other reference. -/
theorem exists_fillIn {r now : Registry} {ended : List OpenFetch} {f : OpenFetch}
    {remote : RemoteInterface} (hkeys : (r.references.map Reference.key).Nodup)
    (hsettled : List.Forall₂ (Reference.Settled ended) r.references now.references)
    (hf : f.reference ∈ r.unresolved) (hopen : ∀ g ∈ ended, g.reference ≠ f.reference)
    (hreading : f.reading = .ok remote) :
    ∃ after, now.fillIn f.reference.key remote = .ok after ∧ after.tasks = now.tasks ∧
      List.Forall₂ (Reference.Settled (ended ++ [f])) r.references after.references := by
  obtain ⟨hreference, hinterface⟩ := mem_unresolved_iff.1 hf
  obtain ⟨response, hanswer, hclean, hreads⟩ := Reference.readAnswer_eq_ok_iff.1 hreading
  have hstep : ∀ ref ∈ r.references, ∀ old, ref.Settled ended old → ∃ new,
      (if old.key = f.reference.key then old.fillIn remote else .ok old) = .ok new ∧
        ref.Settled (ended ++ [f]) new := by
    intro ref href old hold
    by_cases hkey : ref.key = f.reference.key
    · obtain rfl : ref = f.reference := List.inj_on_of_nodup_map hkeys href hreference hkey
      rw [if_pos hold.key_eq]
      cases hold with
      | untouched =>
        refine ⟨_, ?_, .filled (List.mem_append_right _ List.mem_cons_self) rfl hinterface hanswer
          hclean hreads⟩
        simp [Reference.fillIn, Reference.isResolved, hinterface]
      | filled hmem hsame => exact absurd hsame (hopen _ hmem)
    · rw [if_neg (hold.key_eq ▸ hkey)]
      refine ⟨old, rfl, hold.concat fun hreference => ?_⟩
      exact absurd (congrArg Reference.key hreference.symm) hkey
  obtain ⟨references, hmapM, hlater⟩ := exists_mapM_of_forall₂ hsettled hstep
  refine ⟨{ now with references }, ?_, rfl, hlater⟩
  rw [fillIn, hmapM]
  rfl

/-- What a run has done to a registry and over the link, with these fetches started and ended. -/
structure FillsIn (server : Server ω) (r : Registry) (link : Link ω)
    (fetches ended : List OpenFetch) (s : Registry × Link ω) : Prop where
  asked : (fetches, s.2.state) = server.askAll (fetches.map (·.reference)) link.state
  exchanged : ∃ events, s.2.exchanges = link.exchanges ++ events ∧
    Fetched events (fetches.map (·.reference.documentPath))
      (ended.map (·.reference.documentPath))
  tasks_eq : s.1.tasks = r.tasks
  settled : List.Forall₂ (Reference.Settled ended) r.references s.1.references

section FillsIn

variable {server : Server ω} {r : Registry} {link : Link ω} {fetches ended : List OpenFetch}
  {s : Registry × Link ω}

theorem FillsIn.nil (server : Server ω) (r : Registry) (link : Link ω) :
    FillsIn server r link [] [] (r, link) where
  asked := rfl
  exchanged := ⟨[], by simp, .nil⟩
  tasks_eq := rfl
  settled := List.forall₂_same.2 fun _ _ => .untouched (by simp)

theorem FillsIn.fetch (h : FillsIn server r link fetches ended s) (ref : Reference) :
    FillsIn server r link
      (fetches ++ [⟨fetches.length, ref, (server.fetch ref.documentPath s.2.state).1⟩]) ended
      (s.1, ⟨(server.fetch ref.documentPath s.2.state).2,
        s.2.exchanges ++ [.fetchSent ref.documentPath]⟩) where
  asked := by
    rw [List.map_append, List.map_singleton, Server.askAll_concat, ← h.asked]
  exchanged := by
    obtain ⟨events, hevents, hfetched⟩ := h.exchanged
    refine ⟨events ++ [.fetchSent ref.documentPath], by rw [hevents, List.append_assoc], ?_⟩
    rw [List.map_append]
    exact hfetched.send ref.documentPath
  tasks_eq := h.tasks_eq
  settled := h.settled

/-- The end of a fetch fails only when its answer cannot be read. -/
theorem FillsIn.settle (h : FillsIn server r link fetches ended s)
    (hkeys : (r.references.map Reference.key).Nodup) {f : OpenFetch}
    (hf : f.reference ∈ r.unresolved) (hopen : ∀ g ∈ ended, g.reference ≠ f.reference) :
    FillsIn server r link fetches (ended ++ [f]) (f.settle.runFrom s).value.2 ∧
      (f.settle.runFrom s).value.1 = f.reading.map fun _ => () := by
  obtain ⟨events, hevents, hfetched⟩ := h.exchanged
  have hdone : ∃ events', s.2.exchanges ++ [.fetchDone f.reference.documentPath] =
        link.exchanges ++ events' ∧
      Fetched events' (fetches.map (·.reference.documentPath))
        ((ended ++ [f]).map (·.reference.documentPath)) := by
    refine ⟨events ++ [.fetchDone f.reference.documentPath],
      by rw [hevents, List.append_assoc], ?_⟩
    rw [List.map_append]
    exact hfetched.finish f.reference.documentPath
  rcases f.settle_cases s with ⟨e, hreading, hvalue⟩ | ⟨remote, hreading, hfilled⟩
  · rw [hvalue, hreading]
    refine ⟨⟨h.asked, hdone, h.tasks_eq, ?_⟩, rfl⟩
    exact h.settled.imp fun _ _ hold => hold.concat fun _ => ⟨e, hreading⟩
  · obtain ⟨now, hfillIn, htasks, hsettled⟩ := exists_fillIn hkeys h.settled hf hopen hreading
    rcases hfilled with ⟨e, herror, -⟩ | ⟨after, hafter, hvalue⟩
    · rw [hfillIn] at herror
      cases herror
    · rw [hfillIn] at hafter
      obtain rfl := Except.ok.inj hafter
      rw [hvalue, hreading]
      exact ⟨⟨h.asked, hdone, htasks.trans h.tasks_eq, hsettled⟩, rfl⟩

theorem runInvariant_fillsIn (hkeys : (r.references.map Reference.key).Nodup) :
    RunInvariant server r.unresolved fun started ended s =>
      FillsIn server r link started (ended.map (·.fetch)) s ∧
        ∀ x ∈ ended, x.outcome = x.fetch.reading.map fun _ => () where
  fetch started ended ref s _ := by
    rintro ⟨hfills, houtcomes⟩ -
    exact ⟨hfills.fetch ref, houtcomes⟩
  settle started ended f s hschedule := by
    rintro ⟨hfills, houtcomes⟩ hf hopen
    have hpending : f.reference ∈ r.unresolved :=
      hschedule.started_isPrefix.subset (List.mem_map_of_mem hf)
    have hnew : ∀ g ∈ ended.map (·.fetch), g.reference ≠ f.reference := by
      intro g hg heq
      obtain ⟨x, hx, rfl⟩ := List.mem_map.1 hg
      have hsame := hschedule.eq_of_reference_eq (unresolved_nodup hkeys)
        (hschedule.ended_started x hx) hf heq
      exact hopen (List.mem_map.2 ⟨x, hx, congrArg OpenFetch.position hsame⟩)
    obtain ⟨hlater, houtcome⟩ := hfills.settle hkeys hpending hnew
    refine ⟨by rw [List.map_append]; exact hlater, ?_⟩
    exact List.forall_mem_append.2 ⟨houtcomes, List.forall_mem_singleton.2 houtcome⟩

/-- The result of a whole run. -/
structure Conducted (server : Server ω) (r : Registry) (link : Link ω)
    (fetches ended : List OpenFetch) (result : Except Error Nat × Registry × Link ω) : Prop
    extends FillsIn server r link fetches ended result.2 where
  /-- Only references that were open are asked for, and none of them twice. -/
  pending : fetches.map (·.reference) <+: r.unresolved
  fetches_nodup : (fetches.map (·.reference)).Nodup
  ended_subset : ∀ f ∈ ended, f ∈ fetches
  ended_nodup : (ended.map (·.reference)).Nodup
  of_ok : ∀ n, result.1 = .ok n → n = r.unresolved.length ∧
    fetches.map (·.reference) = r.unresolved ∧ result.2.1.unresolved = []
  /-- A failure is that of reading an answer. The reference that was asked for stays open. -/
  of_error : ∀ e, result.1 = .error e →
    ∃ f ∈ ended, f.reading = .error e ∧ f.reference ∈ result.2.1.unresolved

/-- When every open reference had an answer that could be read, none stays open. -/
theorem FillsIn.unresolved_eq_nil (h : FillsIn server r link fetches ended s)
    (hended : ∀ ref ∈ r.unresolved,
      ∃ f ∈ ended, f.reference = ref ∧ ∃ remote, f.reading = .ok remote) :
    s.1.unresolved = [] := by
  rw [List.eq_nil_iff_forall_not_mem]
  intro now hnow
  obtain ⟨hmem, hopen⟩ := mem_unresolved_iff.1 hnow
  obtain ⟨ref, href, hsettled⟩ := exists_of_forall₂_right h.settled hmem
  obtain ⟨rfl, hfailed⟩ := hsettled.of_open hopen
  obtain ⟨f, hf, hreference, remote, hreading⟩ := hended now (mem_unresolved_iff.2 ⟨href, hopen⟩)
  obtain ⟨e, herror⟩ := hfailed f hf hreference
  rw [hreading] at herror
  cases herror

/-- A reference whose answer cannot be read stays open, since no other fetch is for it. -/
theorem FillsIn.mem_unresolved (h : FillsIn server r link fetches ended s)
    (hnodup : (ended.map (·.reference)).Nodup) {f : OpenFetch} {e : Error} (hf : f ∈ ended)
    (hpending : f.reference ∈ r.unresolved) (hreading : f.reading = .error e) :
    f.reference ∈ s.1.unresolved := by
  obtain ⟨hmem, hopen⟩ := mem_unresolved_iff.1 hpending
  obtain ⟨now, hnow, hsettled⟩ := exists_of_forall₂_left h.settled hmem
  cases hsettled with
  | untouched => exact mem_unresolved_iff.2 ⟨hnow, hopen⟩
  | @filled g _ remote hg hreference _ hanswer hclean hreads =>
    obtain rfl := List.inj_on_of_nodup_map hnodup hg hf hreference
    have hread := Reference.readAnswer_eq_ok_iff.2 ⟨_, hanswer, hclean, hreads⟩
    rw [OpenFetch.reading, hread] at hreading
    cases hreading

theorem resolve_conducted (hkeys : (r.references.map Reference.key).Nodup) (server : Server ω)
    (link : Link ω) : ∃ fetches ended,
      Conducted server r link fetches ended ((resolve server).runFrom (r, link)).value := by
  obtain ⟨started, ended, hschedule, ⟨hfills, houtcomes⟩, hok, herror⟩ :=
    resolve_follows (runInvariant_fillsIn hkeys) link ⟨FillsIn.nil server r link, by simp⟩
  have hpending := unresolved_nodup hkeys
  have hnodup : ((ended.map (·.fetch)).map (·.reference)).Nodup := by
    rw [List.map_map]
    refine (List.Nodup.of_map _ hschedule.ended_nodup).map_on ?_
    intro x hx y hy hreference
    have hsame := hschedule.eq_of_reference_eq hpending (hschedule.ended_started x hx)
      (hschedule.ended_started y hy) hreference
    exact List.inj_on_of_nodup_map hschedule.ended_nodup hx hy
      (congrArg OpenFetch.position hsame)
  refine ⟨started, ended.map (·.fetch),
    { toFillsIn := hfills
      pending := hschedule.started_isPrefix
      fetches_nodup := hschedule.started_isPrefix.sublist.nodup hpending
      ended_subset := ?_
      ended_nodup := hnodup
      of_ok := ?_
      of_error := ?_ }⟩
  · intro f hf
    obtain ⟨x, hx, rfl⟩ := List.mem_map.1 hf
    exact hschedule.ended_started x hx
  · intro n hn
    obtain ⟨hcount, hall, hfine⟩ := hok n hn
    refine ⟨hcount, hall, hfills.unresolved_eq_nil ?_⟩
    intro ref href
    rw [← hall] at href
    obtain ⟨f, hf, rfl⟩ := List.mem_map.1 href
    have hx := hfine f hf
    refine ⟨f, List.mem_map.2 ⟨_, hx, rfl⟩, rfl, ?_⟩
    have houtcome := houtcomes _ hx
    dsimp only at houtcome
    cases hreading : f.reading with
    | ok remote => exact ⟨remote, rfl⟩
    | error e =>
      rw [hreading] at houtcome
      cases houtcome
  · intro e he
    obtain ⟨x, hx, hfailed⟩ := herror e he
    have houtcome := houtcomes x hx
    rw [hfailed] at houtcome
    have hmem : x.fetch ∈ ended.map (·.fetch) := List.mem_map_of_mem hx
    cases hreading : x.fetch.reading with
    | ok remote =>
      rw [hreading] at houtcome
      cases houtcome
    | error e' =>
      rw [hreading] at houtcome
      obtain rfl := Except.error.inj houtcome
      refine ⟨x.fetch, hmem, hreading, hfills.mem_unresolved hnodup hmem ?_ hreading⟩
      exact hschedule.started_isPrefix.subset
        (List.mem_map_of_mem (hschedule.ended_started x hx))

end FillsIn

end Registry

/-- A server that may fail at any time, but whose answers are fixed for each path when a reference
    can be filled in from them. -/
def Server.Steady (server : Server ω) (bodies : String → Value) : Prop :=
  ∀ (ref : Reference) (state : ω) (response : Response) (remote : RemoteInterface),
    (server.fetch ref.documentPath state).1.answer = .ok response → response.Clean →
      ref.Reads response.body remote → response.body = bodies ref.documentPath

/-- Whether a reference is another one with nothing changed but that its interface may have been
    read from the fixed answer. -/
def Reference.Toward (bodies : String → Value) (ref now : Reference) : Prop :=
  now = ref ∨ ref.interface = none ∧ ∃ remote, ref.Reads (bodies ref.documentPath) remote ∧
    now = { ref with interface := some remote }

namespace Reference.Toward

variable {bodies : String → Value} {ref now later : Reference}

theorem trans (hfirst : ref.Toward bodies now) (hsecond : now.Toward bodies later) :
    ref.Toward bodies later := by
  rcases hfirst with rfl | ⟨hopen, remote, hreads, rfl⟩
  · exact hsecond
  · rcases hsecond with rfl | ⟨hfilled, -⟩
    · exact .inr ⟨hopen, remote, hreads, rfl⟩
    · cases hfilled

theorem eq_of_filled (hnow : ref.Toward bodies now) (hlater : ref.Toward bodies later)
    (hfilled : now.interface ≠ none) (hfilled' : later.interface ≠ none) : now = later := by
  rcases hnow with rfl | ⟨hopen, remote, hreads, rfl⟩
  · rcases hlater with rfl | ⟨hopen, -⟩
    · rfl
    · exact absurd hopen hfilled
  · rcases hlater with rfl | ⟨-, remote', hreads', rfl⟩
    · exact absurd hopen hfilled'
    · rw [hreads.unique hreads']

end Reference.Toward

theorem Server.exists_of_mem_askAll {server : Server ω} {refs : List Reference} {state : ω}
    {f : OpenFetch} (hf : f ∈ (server.askAll refs state).1) :
    ∃ between, f.reply = (server.fetch f.reference.documentPath between).1 := by
  induction refs using List.reverseRecOn with
  | nil => cases hf
  | append_singleton refs ref ih =>
    rw [askAll_concat] at hf
    rcases List.mem_append.1 hf with hf | hf
    · exact ih hf
    · obtain rfl := List.mem_singleton.1 hf
      exact ⟨_, rfl⟩

namespace Registry

/-- Whether a registry has the tasks and references of another one, each of them on its way. -/
structure Toward (bodies : String → Value) (r after : Registry) : Prop where
  tasks_eq : after.tasks = r.tasks
  references : List.Forall₂ (Reference.Toward bodies) r.references after.references

theorem Toward.trans {bodies : String → Value} {r between after : Registry}
    (hfirst : r.Toward bodies between) (hsecond : between.Toward bodies after) :
    r.Toward bodies after where
  tasks_eq := hsecond.tasks_eq.trans hfirst.tasks_eq
  references := forall₂_trans hfirst.references hsecond.references fun _ _ _ _ _ h h' => h.trans h'

/-- Registries in which nothing is open are the same when they are on the same way. -/
theorem Toward.eq_of_unresolved {bodies : String → Value} {r first second : Registry}
    (hfirst : r.Toward bodies first) (hsecond : r.Toward bodies second)
    (hnone : first.unresolved = []) (hnone' : second.unresolved = []) : first = second := by
  have hfilled : ∀ {after : Registry}, after.unresolved = [] →
      ∀ ref ∈ after.references, ref.interface ≠ none := by
    intro after hempty ref href hopen
    have hmem := mem_unresolved_iff.2 ⟨href, hopen⟩
    rw [hempty] at hmem
    cases hmem
  have hback : List.Forall₂ (fun now ref => Reference.Toward bodies ref now) first.references
      r.references := hfirst.references.flip
  have hreferences : first.references = second.references := by
    rw [← List.forall₂_eq_eq_eq]
    refine forall₂_trans hback hsecond.references ?_
    intro now hnow later hlater ref htoward htoward'
    exact htoward.eq_of_filled htoward' (hfilled hnone now hnow) (hfilled hnone' later hlater)
  cases first
  cases second
  cases hreferences
  cases hfirst.tasks_eq.trans hsecond.tasks_eq.symm
  rfl

theorem FillsIn.toward {server : Server ω} {bodies : String → Value} {r : Registry}
    {link : Link ω} {fetches ended : List OpenFetch} {s : Registry × Link ω}
    (h : FillsIn server r link fetches ended s) (hsteady : server.Steady bodies)
    (hsub : ∀ f ∈ ended, f ∈ fetches) : r.Toward bodies s.1 where
  tasks_eq := h.tasks_eq
  references := by
    refine h.settled.imp ?_
    intro ref now hsettled
    cases hsettled with
    | untouched => exact .inl rfl
    | @filled f response remote hf hreference hopen hanswer hclean hreads =>
      have hasked := hsub f hf
      rw [(Prod.mk.inj h.asked).1] at hasked
      obtain ⟨between, hreply⟩ := Server.exists_of_mem_askAll hasked
      rw [hreply, hreference] at hanswer
      have hbody := hsteady ref between response remote hanswer hclean hreads
      exact .inr ⟨hopen, remote, hbody ▸ hreads, rfl⟩

/-- The registry after runs one after the other. -/
def afterRuns (r : Registry) (runs : List (Server ω × Link ω)) : Registry :=
  runs.foldl (fun r run => ((resolve run.1).runFrom (r, run.2)).value.2.1) r

theorem Reachable.toward_run {r : Registry} (h : r.Reachable) {server : Server ω}
    {bodies : String → Value} (hsteady : server.Steady bodies) (link : Link ω) :
    r.Toward bodies ((Registry.resolve server).runFrom (r, link)).value.2.1 := by
  obtain ⟨fetches, ended, hrun⟩ := resolve_conducted h.keys_nodup server link
  exact hrun.toFillsIn.toward hsteady hrun.ended_subset

theorem reachable_afterRuns {r : Registry} (h : r.Reachable) {bodies : String → Value}
    (runs : List (Server ω × Link ω)) (hsteady : ∀ run ∈ runs, run.1.Steady bodies) :
    (r.afterRuns runs).Reachable ∧ r.Toward bodies (r.afterRuns runs) := by
  induction runs generalizing r with
  | nil => exact ⟨h, rfl, List.forall₂_same.2 fun _ _ => .inl rfl⟩
  | cons run runs ih =>
    have hlater : ∀ other ∈ runs, other.1.Steady bodies := fun other hother =>
      hsteady other (List.mem_cons_of_mem _ hother)
    obtain ⟨hreachable, htoward⟩ := ih (h.resolve run.1 run.2) hlater
    exact ⟨hreachable, (h.toward_run (hsteady run List.mem_cons_self) run.2).trans htoward⟩

/-- Every run asks only for what is open, each reference at most once, and writes an interface
    only from the clean answer to its own fetch; it succeeds exactly when it leaves nothing open.
    Against servers whose good answers are fixed, any runs that are followed by one that succeeds
    lead where one successful run leads. -/
theorem resolve_writes_once {r : Registry} (h : r.Reachable) (server : Server ω) (link : Link ω) :
    (∃ fetches ended,
      Conducted server r link fetches ended ((resolve server).runFrom (r, link)).value) ∧
    ∀ (bodies : String → Value) (runs : List (Server ω × Link ω)) (last : Server ω × Link ω)
      (n m : Nat), (∀ run ∈ last :: runs, run.1.Steady bodies) → server.Steady bodies →
      ((resolve last.1).runFrom (r.afterRuns runs, last.2)).value.1 = .ok n →
      ((resolve server).runFrom (r, link)).value.1 = .ok m →
      r.afterRuns (runs ++ [last]) = ((resolve server).runFrom (r, link)).value.2.1 := by
  constructor
  · exact resolve_conducted h.keys_nodup server link
  · intro bodies runs last n m hruns hsteady hlast hsingle
    have hbefore : ∀ run ∈ runs, run.1.Steady bodies := fun run hrun =>
      hruns run (List.mem_cons_of_mem _ hrun)
    obtain ⟨hreachable, htoward⟩ := reachable_afterRuns h runs hbefore
    obtain ⟨_, _, hended⟩ := resolve_conducted hreachable.keys_nodup last.1 last.2
    obtain ⟨_, _, hended'⟩ := resolve_conducted h.keys_nodup server link
    have hmore := hreachable.toward_run (hruns last List.mem_cons_self) last.2
    rw [afterRuns, List.foldl_append]
    exact (htoward.trans hmore).eq_of_unresolved (h.toward_run hsteady link)
      (hended.of_ok n hlast).2.2 (hended'.of_ok m hsingle).2.2

/-- The document of a task with one text output. -/
def greeting : Value :=
  let output := .obj [("type", .obj [("simple", .str "STRING")])]
  let outputs := .obj [("variables", .obj [("y", output)])]
  let template := .obj [("interface", .obj [("outputs", outputs)])]
  .obj [("closure", .obj [("compiled_task", .obj [("template", template)])])]

/-- A server that is not ready for its first request. -/
def wakingServer : Server Nat where
  fetch _ calls := (⟨0, .ok (if calls = 0 then ⟨503, .null⟩ else ⟨200, greeting⟩)⟩, calls + 1)
  submit _ _ calls := (⟨0, .ok ⟨200, .obj []⟩⟩, calls + 1)

theorem wakingServer_steady : wakingServer.Steady fun _ => greeting := by
  intro ref calls response remote hanswer hclean _
  have hresponse := Except.ok.inj hanswer
  split at hresponse
  · subst hresponse
    have hstatus : 503 < 300 := hclean.status_lt
    omega
  · rw [← hresponse]

/-- One reference whose interface is not known. -/
def oneOpen : Registry := ⟨[], [⟨⟨.task, "p", "d", "greet", "v"⟩, .task, none⟩]⟩

theorem oneOpen_reachable : oneOpen.Reachable := by
  let greet : Reference := ⟨⟨.task, "p", "d", "greet", "v"⟩, .task, none⟩
  have hdeclare : (Registry.empty.declare greet).run.value = .ok ("p-d-greet-v", oneOpen) := rfl
  exact .declare .empty hdeclare

theorem oneOpen_resolves :
    ((resolve wakingServer).runFrom (oneOpen, ⟨1, []⟩)).value.1 = .ok 1 := by
  apply eq_ok_of_toOption
  decide +kernel

/-- The first run fails, the second one succeeds, and the first one might as well not have been. -/
theorem oneOpen_writes_once :
    ((resolve wakingServer).runFrom (oneOpen, ⟨0, []⟩)).value.1.toOption = none ∧
      oneOpen.afterRuns [(wakingServer, ⟨0, []⟩), (wakingServer, ⟨1, []⟩)] =
        ((resolve wakingServer).runFrom (oneOpen, ⟨1, []⟩)).value.2.1 := by
  obtain ⟨-, hsame⟩ := resolve_writes_once oneOpen_reachable wakingServer ⟨1, []⟩
  have hfailed : oneOpen.afterRuns [(wakingServer, ⟨0, []⟩)] = oneOpen := rfl
  refine ⟨rfl, hsame (fun _ => greeting) [(wakingServer, ⟨0, []⟩)] (wakingServer, ⟨1, []⟩) 1 1 ?_
    wakingServer_steady ?_ oneOpen_resolves⟩
  · intro run hrun
    have hserver : run.1 = wakingServer := by
      rcases List.mem_cons.1 hrun with rfl | hrun
      · rfl
      · rw [List.mem_singleton.1 hrun]
    exact hserver ▸ wakingServer_steady
  · rw [hfailed]
    exact oneOpen_resolves

end Registry

end TaskGraph
