import RecordService.Proofs.Gateway.Traceless
import RecordService.Proofs.Http.BothFormats
import RecordService.Proofs.Store.Expiry

/-!
# Requests that are answered with a client error

A request whose answer has a status from 400 to 499 changes nothing that any later answer could
depend on, wherever on its way it has failed: when it was read, at the task registry or at the
store.

* `Response.IsClientError`: the status is from 400 to 499.
* `traceless_orElse`, `traceless_told`, `traceless_bind`: what endpoints are made of.
* `traceless_handle`: a request leaves no trace if it is answered with a client error.
* `GatewayEvent`, `answers`: requests and background work, one after the other.
* `run_wellFormed`: a gateway that began without records and tasks is well-formed ever after.
* `clientError_traceless`: what is answered later is the same without the request.
-/

namespace RecordService.Http

variable {now : Instant} {fresh : TaskId} {codec : Codec} {α β : Type}

/-- The status of a response says that the client is at fault. -/
def Response.IsClientError (r : Response) : Prop := 400 ≤ r.status ∧ r.status < 500

open Gateway

/-! ## Endpoints -/

/-- A call that gets its input from the request alone. -/
theorem traceless_orElse {Refused : Except GatewayError β → Prop} {input : Except GatewayError α}
    {call : α → Gateway → Except GatewayError β × Gateway}
    (h : ∀ a, Traceless now fresh Refused (call a)) :
    Traceless now fresh Refused fun g => orElse g input fun a => call a g := by
  cases input with
  | error e => exact traceless_read fun _ => rfl
  | ok a => exact h a

/-- An outcome that is answered with a client error. -/
def IsClientFault (a : Except GatewayError Response) : Prop := (respond .json a).IsClientError

theorem isClientFault_iff (a : Except GatewayError Response) :
    (respond codec a).IsClientError ↔ IsClientFault a := by
  cases a <;> exact Iff.rfl

/-- A call whose success is told with no client error. -/
theorem traceless_told {call : Gateway → Except GatewayError α × Gateway} {tell : α → Response}
    (h : Traceless now fresh IsRefusal call) (htell : ∀ a, (tell a).status < 400) :
    Traceless now fresh IsClientFault fun g => ((call g).1.map tell, (call g).2) := by
  refine h.map (f := fun a => a.map tell) fun a ha => ?_
  cases a with
  | error e => exact ⟨e, rfl, ha.2⟩
  | ok a => exact absurd ha.1 (Nat.not_le.mpr (htell a))

theorem traceless_changed {call : Gateway → Except GatewayError Response × Gateway}
    (h : Traceless now fresh IsClientFault call) :
    Traceless now fresh Response.IsClientError fun g => changed codec (call g) :=
  h.map (f := respond codec) fun a => (isClientFault_iff a).mp

section

variable (tail : String) (q : RecordQuery) (body : Bytes)

theorem traceless_createRecord :
    Traceless now fresh IsClientFault fun g => createRecord g now codec tail q body :=
  traceless_orElse fun ⟨address, ttl, bins⟩ =>
    traceless_told (traceless_putRecord address bins _) fun _ => (by decide : 201 < 400)

theorem traceless_replaceRecord :
    Traceless now fresh IsClientFault fun g => replaceRecord g now codec tail q body :=
  traceless_orElse fun ⟨address, write, bins⟩ =>
    traceless_told (traceless_putRecord address bins _) fun _ => (by decide : 204 < 400)

theorem traceless_updateRecord :
    Traceless now fresh IsClientFault fun g => updateRecord g now codec tail q body :=
  traceless_orElse fun ⟨address, write, bins⟩ =>
    traceless_told (traceless_putRecord address bins _) fun _ => (by decide : 204 < 400)

theorem traceless_deleteRecord :
    Traceless now fresh IsClientFault fun g => deleteRecord g now tail q :=
  traceless_orElse fun ⟨address, write⟩ =>
    traceless_told (Gateway.traceless_deleteRecord address _) fun _ => (by decide : 204 < 400)

theorem traceless_operate (formats : Formats) :
    Traceless now fresh IsClientFault fun g => operate g now formats tail q body :=
  traceless_orElse fun ⟨address, write, ops⟩ =>
    traceless_told (Gateway.traceless_operate address _ _) fun _ => (by decide : 200 < 400)

end

theorem traceless_execute (formats : Formats) (ns : String) (set : Option String)
    (q : ExecuteQuery) (body : Bytes) :
    Traceless now fresh IsClientFault fun g => execute g now fresh formats ns set q body :=
  traceless_orElse fun ⟨selection, ops⟩ =>
    traceless_told (traceless_submit selection _) fun _ => (by decide : 202 < 400)

theorem traceless_taskStatus (task : String) :
    Traceless now fresh IsClientFault fun g => taskStatus g now codec task :=
  traceless_told (Gateway.traceless_taskStatus task) fun _ => (by decide : 200 < 400)

/-! ### Reads -/

section

variable {g : Gateway} (hg : g.WellFormed) (tail : String) (q : RecordQuery)

include hg

theorem getRecord_tidy :
    getRecord (g.tidy now) now codec tail q = getRecord g now codec tail q := by
  simp only [getRecord, Gateway.getRecord_tidy hg]

theorem headRecord_tidy : headRecord (g.tidy now) now tail q = headRecord g now tail q := by
  simp only [headRecord, Gateway.recordExists_tidy hg]

end

/-! ## Requests -/

/-- Where nothing but the request decides whether it is refused before the gateway is asked. -/
theorem traceless_bind {x : Except Response α}
    {go : α → Gateway → Except Response (Response × Gateway)}
    (h : ∀ a, Traceless now fresh Response.IsClientError fun g => answered g (go a g)) :
    Traceless now fresh Response.IsClientError fun g => answered g (x.bind fun a => go a g) := by
  cases x with
  | error refusal => exact traceless_read fun _ => rfl
  | ok a => exact h a

theorem traceless_withFormats {r : Request}
    {go : Formats → Gateway → Except Response (Response × Gateway)}
    (h : ∀ f, Traceless now fresh Response.IsClientError fun g => answered g (go f g)) :
    Traceless now fresh Response.IsClientError fun g =>
      answered g (withFormats r fun f => go f g) := by
  unfold withFormats
  cases Formats.negotiate r with
  | error e => exact traceless_read fun _ => rfl
  | ok f => exact h f

theorem traceless_recordCall (tail : String) (r : Request) :
    Traceless now fresh Response.IsClientError fun g =>
      answered g (recordCall g now tail r) := by
  refine traceless_withFormats fun f => traceless_bind fun q => ?_
  cases r.method with
  | get => exact traceless_read fun hg => by rw [getRecord_tidy hg]
  | delete => exact traceless_changed (traceless_deleteRecord tail q)
  | post => exact traceless_bind fun body => traceless_changed (traceless_createRecord tail q body)
  | put => exact traceless_bind fun body => traceless_changed (traceless_replaceRecord tail q body)
  | patch | head | other =>
    exact traceless_bind fun body => traceless_changed (traceless_updateRecord tail q body)

theorem traceless_call (route : Route) (r : Request) :
    Traceless now fresh Response.IsClientError fun g =>
      answered g (call g now fresh route r) := by
  cases route with
  | record tail =>
    unfold call
    by_cases hhead : r.method = .head
    · simp only [if_pos hhead]
      exact traceless_bind fun q => traceless_read fun hg => headRecord_tidy hg tail q
    · simp only [if_neg hhead]
      exact traceless_recordCall tail r
  | operate tail =>
    exact traceless_withFormats fun f => traceless_bind fun q => traceless_bind fun body =>
      traceless_changed (traceless_operate tail q body f)
  | scan ns set =>
    refine traceless_withFormats fun f => traceless_bind fun ns => traceless_bind fun set =>
      traceless_bind fun q => traceless_read fun hg => ?_
    simp only [scan, scan_tidy]
  | execute ns set =>
    exact traceless_withFormats fun f => traceless_bind fun ns => traceless_bind fun set =>
      traceless_bind fun q => traceless_bind fun body =>
        traceless_changed (traceless_execute f ns set q body)
  | taskStatus task =>
    exact traceless_withFormats fun f => traceless_bind fun task =>
      traceless_changed (traceless_taskStatus task)
  | info node =>
    refine traceless_withFormats fun f => traceless_bind fun node => traceless_bind fun body =>
      traceless_read fun hg => ?_
    simp only [info, info_tidy]
  | cluster => exact traceless_withFormats fun f => traceless_read fun _ => rfl

theorem traceless_onRoute (route : Route) (r : Request) :
    Traceless now fresh Response.IsClientError fun g => onRoute g now fresh route r := by
  unfold onRoute
  by_cases hmethod : route.methods.contains r.method
  · simp only [if_pos hmethod]
    exact traceless_call route r
  · simp only [if_neg hmethod]
    exact traceless_read fun _ => rfl

/-- A request leaves no trace if it is answered with a client error. -/
theorem traceless_handle (r : Request) :
    Traceless now fresh Response.IsClientError fun g => handle g now fresh r := by
  have hbody : ∀ a : Response,
      (if r.method = .head then a.withoutBody else a).IsClientError → a.IsClientError := by
    intro a
    split <;> exact id
  unfold handle
  cases Route.ofPath? r.path with
  | none => exact traceless_read fun _ => rfl
  | some route => exact (traceless_onRoute route r).map hbody

/-! ## Runs -/

/-- Something that happens to a gateway: a request, whose task gets the fresh name if it submits
one, a look of the registry at the jobs of its running tasks, or something that happens to the store
by itself. -/
inductive GatewayEvent
  | request (fresh : TaskId) (r : Request)
  | poll
  | store (call : StoreCall)

/-- What is told of an event. -/
inductive GatewayAnswer
  | response (r : Response)
  | silent
  | store (answer : StoreAnswer)

namespace GatewayEvent

/-- The answer to an event, and the gateway after it. -/
def serve (now : Instant) (g : Gateway) : GatewayEvent → GatewayAnswer × Gateway
  | request fresh r => (handle g now fresh r).map .response id
  | poll => (.silent, g.poll now)
  | store call => (call.serve now g.store).map .store fun s => { g with store := s }

/-- The name for the task of a request. -/
def name? : GatewayEvent → Option TaskId
  | request fresh _ => some fresh
  | poll | store _ => none

variable {g : Gateway} {e : GatewayEvent} {id : TaskId}

/-- An event goes the same in a tidy gateway, up to what is left behind. -/
theorem serve_tidy (hg : g.WellFormed) (now : Instant) (e : GatewayEvent) :
    (e.serve now (g.tidy now)).1 = (e.serve now g).1 ∧
      (e.serve now (g.tidy now)).2.tidy now = (e.serve now g).2.tidy now := by
  have hagain : ∀ g : Gateway, (g.tidy now).tidy now = g.tidy now := tidy_tidy (Int.le_refl now)
  cases e with
  | request fresh r =>
    simp only [serve, (traceless_handle r).tidy hg]
    exact ⟨rfl, hagain _⟩
  | poll => exact ⟨rfl, poll_tidy now g⟩
  | store call =>
    have hcall : call.serve now (g.tidy now).store = _ := call.serve_purge hg.store now
    simp only [serve, hcall]
    exact ⟨rfl, hagain { g with store := (call.serve now g.store).2 }⟩

theorem serve_wellFormed (hg : g.WellFormed) (hname : ∀ id ∈ e.name?, ¬g.Tracks id)
    (now : Instant) : (e.serve now g).2.WellFormed := by
  cases e with
  | request fresh r => exact (traceless_handle r).wellFormed hg (hname fresh rfl)
  | poll => exact hg.poll now
  | store call => exact ⟨call.serve_wellFormed hg.store now, hg.tasks⟩

/-- An event tracks no task but one with its name. -/
theorem serve_tracks (h : (e.serve now g).2.Tracks id) : g.Tracks id ∨ id ∈ e.name? := by
  cases e with
  | request fresh r =>
    refine ((traceless_handle r).tracks h).imp_right fun hid => ?_
    rw [hid]
    rfl
  | poll => exact .inl (tracks_poll.mp h)
  | store call => exact .inl h

end GatewayEvent

variable {g g' : Gateway} {e : GatewayEvent} {events rest : List (Instant × GatewayEvent)}

/-- The gateway after events. -/
def run (g : Gateway) (events : List (Instant × GatewayEvent)) : Gateway :=
  events.foldl (fun g x => (x.2.serve x.1 g).2) g

/-- The answers to events one after the other. -/
def answers : Gateway → List (Instant × GatewayEvent) → List GatewayAnswer
  | _, [] => []
  | g, (now, e) :: rest => (e.serve now g).1 :: answers (e.serve now g).2 rest

/-- The names for the tasks of requests, in order. -/
def names (events : List (Instant × GatewayEvent)) : List TaskId := events.filterMap (·.2.name?)

/-- The names for the tasks of requests are fresh: each is given once, and there is no task of
it. -/
structure Fresh (g : Gateway) (events : List (Instant × GatewayEvent)) : Prop where
  nodup : (names events).Nodup
  untracked : ∀ id ∈ names events, ¬g.Tracks id

theorem names_cons (now : Instant) (e : GatewayEvent) (rest : List (Instant × GatewayEvent)) :
    names ((now, e) :: rest) = e.name?.toList ++ names rest := by
  simp only [names, List.filterMap_cons]
  cases e.name? <;> rfl

theorem Fresh.head (h : Fresh g ((now, e) :: rest)) : ∀ id ∈ e.name?, ¬g.Tracks id := by
  intro id hid
  refine h.untracked id ?_
  rw [names_cons]
  exact List.mem_append_left _ (Option.mem_toList.mpr hid)

theorem Fresh.tail (h : Fresh g ((now, e) :: rest)) : Fresh g rest := by
  obtain ⟨hnodup, huntracked⟩ := h
  rw [names_cons] at hnodup huntracked
  exact ⟨(List.nodup_append.mp hnodup).2.1, (List.forall_mem_append.mp huntracked).2⟩

/-- Names that are fresh before an event are so after it. -/
theorem Fresh.serve (h : Fresh g ((now, e) :: rest)) : Fresh (e.serve now g).2 rest := by
  have hnodup := h.nodup
  rw [names_cons] at hnodup
  obtain ⟨-, -, hdisjoint⟩ := List.nodup_append.mp hnodup
  refine ⟨h.tail.nodup, fun id hid htracks => ?_⟩
  rcases GatewayEvent.serve_tracks htracks with hbefore | hname
  · exact h.tail.untracked id hid hbefore
  · exact hdisjoint id (Option.mem_toList.mpr hname) id hid rfl

/-- Events keep a gateway well-formed, so every one is that began without records and tasks
(`Gateway.ofSettings_wellFormed`). -/
theorem run_wellFormed (hg : g.WellFormed) (hfresh : Fresh g events) :
    (run g events).WellFormed := by
  induction events generalizing g with
  | nil => exact hg
  | cons x rest ih => exact ih (x.2.serve_wellFormed hg hfresh.head x.1) hfresh.serve

/-- The invariant of two runs: the gateways differ only in what has been left behind. -/
theorem answers_congr (hg : g.WellFormed) (hg' : g'.WellFormed)
    (hclock : (events.map (·.1)).Pairwise (· ≤ ·)) (hfresh : Fresh g events)
    (hfresh' : Fresh g' events) (hsame : ∀ x ∈ events, g.tidy x.1 = g'.tidy x.1) :
    answers g events = answers g' events := by
  induction events generalizing g g' with
  | nil => rfl
  | cons x rest ih =>
    obtain ⟨now, e⟩ := x
    obtain ⟨hlater, hclock⟩ := List.pairwise_cons.mp hclock
    have hnow : g.tidy now = g'.tidy now := hsame (now, e) List.mem_cons_self
    obtain ⟨hanswer, hafter⟩ := e.serve_tidy hg now
    obtain ⟨hanswer', hafter'⟩ := e.serve_tidy hg' now
    rw [← hnow] at hanswer' hafter'
    have htidy : (e.serve now g).2.tidy now = (e.serve now g').2.tidy now :=
      hafter.symm.trans hafter'
    have hrest : ∀ x ∈ rest, (e.serve now g).2.tidy x.1 = (e.serve now g').2.tidy x.1 := by
      intro x hx
      have hle : now ≤ x.1 := hlater x.1 (List.mem_map_of_mem hx)
      rw [← tidy_tidy hle, htidy, tidy_tidy hle]
    rw [answers, answers, ← hanswer, hanswer', ih (e.serve_wellFormed hg hfresh.head now)
      (e.serve_wellFormed hg' hfresh'.head now) hclock hfresh.serve hfresh'.serve hrest]

/-- A request that is answered with a client error might as well not have been sent: whatever is
asked afterwards, and whatever else happens, is answered in the same way. The requests that follow
are given the same names for their tasks with it and without it. -/
theorem clientError_traceless (hg : g.WellFormed) {r : Request}
    (herror : (handle g now fresh r).1.IsClientError) {later : List (Instant × GatewayEvent)}
    (hclock : (now :: later.map (·.1)).Pairwise (· ≤ ·))
    (hfresh : Fresh g ((now, .request fresh r) :: later)) :
    answers g ((now, .request fresh r) :: later) =
      .response (handle g now fresh r).1 :: answers g later := by
  have htraceless : Traceless now fresh Response.IsClientError fun g => handle g now fresh r :=
    traceless_handle r
  obtain ⟨hlater, hclock⟩ := List.pairwise_cons.mp hclock
  have hafter : (handle g now fresh r).2.WellFormed :=
    htraceless.wellFormed hg (hfresh.head fresh rfl)
  refine congrArg _ (answers_congr hafter hg hclock hfresh.serve hfresh.tail fun x hx => ?_)
  have hle : now ≤ x.1 := hlater x.1 (List.mem_map_of_mem hx)
  rw [← tidy_tidy hle, htraceless.refused hg herror, tidy_tidy hle]

/-- A task is submitted at the instant 0, has no records to change, and is seen to have ended. It is
to be kept for an hour. -/
def oneTaskEnded : List (Instant × GatewayEvent) :=
  [(0, .request ⟨1⟩ (posted "/v2/execute/scan/test" (.operations [.touch]) .json)),
    (0, .store .dispatch), (0, .store (.stepJob 1)), (0, .store (.stepJob 1)), (0, .poll)]

/-- The gateway that all this has happened to. -/
def withEndedTask : Gateway := run newGateway oneTaskEnded

theorem tasks_withEndedTask :
    withEndedTask.tasks.tasks = [⟨⟨1⟩, 1, "test", none, 0, .complete 0 0⟩] := by decide +kernel

theorem withEndedTask_wellFormed : withEndedTask.WellFormed := by
  refine run_wellFormed (ofSettings_wellFormed {} {} {}) ⟨by decide, ?_⟩
  rintro id - ⟨task, htask, -⟩
  cases htask

/-- A request for the status of that task. -/
def askForTask : Request :=
  { method := .get, path := "/v2/execute/scan/status/00000000-0000-0000-0000-000000000001" }

/-- Who asks for the task after an hour is told that there is none, and has it dropped. Whether
somebody has done so is of no account to the next who asks. -/
theorem clientError_traceless_endedTask :
    let later := [(3600000, .request ⟨3⟩ askForTask), (3600001, .poll),
      (3600002, .request ⟨4⟩ { askForTask with method := .head })]
    withEndedTask.WellFormed ∧ (handle withEndedTask 3600000 ⟨2⟩ askForTask).1.IsClientError ∧
      (handle withEndedTask 3600000 ⟨2⟩ askForTask).2.tasks.tasks.length <
        withEndedTask.tasks.tasks.length ∧
      Fresh withEndedTask ((3600000, .request ⟨2⟩ askForTask) :: later) ∧
      answers withEndedTask ((3600000, .request ⟨2⟩ askForTask) :: later) =
        .response (handle withEndedTask 3600000 ⟨2⟩ askForTask).1 ::
          answers withEndedTask later := by
  intro later
  have herror : (handle withEndedTask 3600000 ⟨2⟩ askForTask).1.IsClientError := by
    unfold Response.IsClientError
    decide +kernel
  have hdropped : (handle withEndedTask 3600000 ⟨2⟩ askForTask).2.tasks.tasks.length <
      withEndedTask.tasks.tasks.length := by decide +kernel
  have hfresh : Fresh withEndedTask ((3600000, .request ⟨2⟩ askForTask) :: later) := by
    refine ⟨by decide, ?_⟩
    unfold Tracks
    rw [tasks_withEndedTask]
    decide
  exact ⟨withEndedTask_wellFormed, herror, hdropped, hfresh,
    clientError_traceless withEndedTask_wellFormed herror (by decide) hfresh⟩

end RecordService.Http
