import RecordService.Proofs.Task.Sweep

/-!
# The status of a task is only read

Who asks for the status of a task that has expired drops it and frees its slot. Nobody else can
tell: a run goes on as if the question had not been put.

* `PolledRegistry`: the registry with its store and the poller. `PolledRegistry.serve`: a call of
  it, made as a whole, a step of the poller, or something that happens to the store.
* `PolledRegistry.Alike`: two of them that are the same after a sweep.
* `PolledRegistry.Alike.serve`, `alike_status`: both give the same answers and stay alike; and a
  question about a task leaves one that is alike.
* `PolledRegistry.answers_without_status`: some questions are put or not, and all else is answered
  the same.
-/

namespace RecordService

/-! ## Registries that are the same after a sweep -/

namespace TaskRegistry

variable {r r' : TaskRegistry} {now : Instant} {fresh id : TaskId}

/-- What the poller notes about a task, if it is running. -/
def noted? (id : TaskId) (r : TaskRegistry) : Option PollerLook :=
  ((r.find? id).filter (·.state = .running)).map fun task => .noted id task.job

/-- A submission depends on what a sweep leaves, and on nothing else. -/
theorem submit_of_swept_eq (h : r.swept now = r'.swept now) (fresh : TaskId)
    (selection : Selection) (ops : List Operation) (s : Store) :
    (r.submit now fresh selection ops s).1 = (r'.submit now fresh selection ops s).1 ∧
      (r.submit now fresh selection ops s).2.1.swept now =
        (r'.submit now fresh selection ops s).2.1.swept now ∧
      (r.submit now fresh selection ops s).2.2 = (r'.submit now fresh selection ops s).2.2 := by
  cases hops : checkOperations ops with
  | error e => simp only [submit, hops, h, and_self]
  | ok => simp only [submit_eq hops, h, and_self]

theorem status_of_swept_eq (hr : r.Distinct) (hr' : r'.Distinct) (h : r.swept now = r'.swept now)
    (text : String) : (r.status now text).1 = (r'.status now text).1 := by
  have hstatus := status_swept hr now text
  rw [h, status_swept hr' now text] at hstatus
  exact (congrArg Prod.fst hstatus).symm

/-- Tasks that run are not swept away. -/
theorem noted?_swept (h : r.Distinct) (now : Instant) (id : TaskId) :
    (r.swept now).noted? id = r.noted? id := by
  unfold noted?
  rw [find?_swept h]
  cases r.find? id with
  | none => rfl
  | some task =>
    by_cases hrunning : task.state = .running
    · simp [Option.filter, hrunning, Task.isExpired_of_running hrunning]
    · cases hexpired : task.isExpired now r.limits.retention <;>
        simp [Option.filter, hrunning, hexpired]

theorem noted?_of_swept_eq (hr : r.Distinct) (hr' : r'.Distinct) (h : r.swept now = r'.swept now)
    (id : TaskId) : r.noted? id = r'.noted? id := by
  rw [← noted?_swept hr now, h, noted?_swept hr' now]

theorem poll_of_swept_eq (h : r.swept now = r'.swept now)
    (jobStatus : Nat → Except StoreError JobState) :
    (r.poll now jobStatus).swept now = (r'.poll now jobStatus).swept now := by
  rw [← poll_swept, h, poll_swept]

theorem pollOne_of_swept_eq (h : r.swept now = r'.swept now) (id : TaskId)
    (answer : Except StoreError JobState) :
    (r.pollOne now id answer).swept now = (r'.pollOne now id answer).swept now := by
  rw [← pollOne_swept, h, pollOne_swept]

end TaskRegistry

/-! ## Runs -/

/-- Something that happens to the registry: a call of it that is made as a whole, a look of the
poller at all jobs or a step of such a look, or something that happens to the store or the clock. -/
inductive RegistryEvent
  /-- A job is submitted. If it is accepted, its task gets the fresh name. -/
  | submit (fresh : TaskId) (request : JobRequest)
  | status (text : String)
  /-- The poller looks at the jobs of all running tasks. -/
  | poll
  /-- The poller notes a task, if it is running. -/
  | notes (id : TaskId)
  /-- The poller goes on with a task that it has noted. -/
  | polls (i : Nat)
  | happens (e : StoreEvent)

/-- What an event is answered with. -/
inductive RegistryAnswer
  | submitted (answer : Except TaskError Task)
  | told (answer : Except TaskError Task)
  /-- The poller and the store do not answer. -/
  | silent

namespace RegistryEvent

/-- The name that a submission would give its task. -/
def name? : RegistryEvent → Option TaskId
  | submit fresh _ => some fresh
  | _ => none

/-- The time that the clock is set to. -/
def time? : RegistryEvent → Option Instant
  | happens (.clock now) => some now
  | _ => none

end RegistryEvent

/-- The registry with its store, and what the poller has in hand. -/
structure PolledRegistry extends Moment where
  registry : TaskRegistry
  looks : List PollerLook := []

namespace PolledRegistry

/-- Answers an event, and gives what is there after it. -/
def serve (t : PolledRegistry) : RegistryEvent → RegistryAnswer × PolledRegistry
  | .submit fresh request =>
    let (answer, registry, store) :=
      t.registry.submit t.now fresh request.selection request.ops t.store
    (.submitted answer, { t with registry, store })
  | .status text =>
    let (answer, registry) := t.registry.status t.now text
    (.told answer, { t with registry })
  | .poll => (.silent, { t with registry := t.registry.poll t.now t.store.jobStatus })
  | .notes id => (.silent, { t with looks := t.looks ++ (t.registry.noted? id).toList })
  | .polls i =>
    match t.looks[i]? with
    | none => (.silent, t)
    | some look =>
      let (look, registry) := look.next t.now t.registry t.store
      (.silent, { t with looks := t.looks.set i look, registry })
  | .happens e => (.silent, { t with toMoment := t.toMoment.after e })

/-- The answers to events, one after the other. -/
def answers (t : PolledRegistry) : List RegistryEvent → List RegistryAnswer
  | [] => []
  | e :: rest => (t.serve e).1 :: (t.serve e).2.answers rest

/-- The events can happen one after the other: the clock is not set back, and the names of the
tasks that are tracked and of those that are submitted are all different. -/
structure Orderly (t : PolledRegistry) (events : List RegistryEvent) : Prop where
  clock : (t.now :: events.filterMap (·.time?)).Pairwise (· ≤ ·)
  names : (t.registry.tasks.map (·.id) ++ events.filterMap (·.name?)).Nodup

variable {t t' : PolledRegistry} {e : RegistryEvent} {events : List RegistryEvent}

theorem Orderly.distinct (h : t.Orderly events) : t.registry.Distinct :=
  (List.nodup_append.mp h.names).1

/-- What an event can add to the names of the tracked tasks. -/
theorem ids_serve (t : PolledRegistry) (e : RegistryEvent) :
    ((t.serve e).2.registry.tasks.map (·.id)).Sublist
      (t.registry.tasks.map (·.id) ++ e.name?.toList) := by
  cases e with
  | submit fresh request =>
    rcases t.registry.tasks_submit t.now fresh request.selection request.ops t.store with
      hsub | ⟨task, rfl, htasks⟩
    · exact (hsub.map _).trans (List.sublist_append_left _ _)
    · show (List.map (·.id) (t.registry.submit ..).2.1.tasks).Sublist _
      rw [htasks, List.map_append]
      exact (List.filter_sublist.map _).append (List.Sublist.refl _)
  | status text =>
    exact ((t.registry.tasks_status t.now text).map _).trans (List.sublist_append_left _ _)
  | poll =>
    show (List.map (·.id) (t.registry.poll ..).tasks).Sublist _
    rw [TaskRegistry.ids_poll]
    exact List.sublist_append_left _ _
  | polls i =>
    cases hlook : t.looks[i]? with
    | none =>
      simp only [serve, hlook]
      exact List.sublist_append_left _ _
    | some look =>
      simp only [serve, hlook]
      cases look with
      | heard id job answer =>
        simp only [PollerLook.next, Traffic.ids_pollOne]
        exact List.sublist_append_left _ _
      | noted | done => exact List.sublist_append_left _ _
  | notes | happens => exact List.sublist_append_left _ _

/-- An event sets the clock to its time, and nothing else does. -/
theorem now_serve (t : PolledRegistry) (e : RegistryEvent) :
    (t.serve e).2.now = e.time?.getD t.now := by
  cases e with
  | polls i => cases hlook : t.looks[i]? <;> simp only [serve, hlook] <;> rfl
  | happens e => cases e <;> rfl
  | submit | status | poll | notes => rfl

theorem Orderly.serve (h : t.Orderly (e :: events)) : (t.serve e).2.Orderly events where
  clock := by
    rw [now_serve]
    have hclock := h.clock
    cases htime : e.time? with
    | none => rwa [List.filterMap_cons_none htime] at hclock
    | some now =>
      rw [List.filterMap_cons_some htime] at hclock
      exact (List.pairwise_cons.mp hclock).2
  names := by
    have hnames : (e :: events).filterMap (·.name?) =
        e.name?.toList ++ events.filterMap (·.name?) := by
      cases hname : e.name? with
      | none => rw [List.filterMap_cons_none hname]; rfl
      | some id => rw [List.filterMap_cons_some hname]; rfl
    have hnodup := h.names
    rw [hnames, ← List.append_assoc] at hnodup
    exact ((t.ids_serve e).append (List.Sublist.refl _)).nodup hnodup

theorem Orderly.now_le (h : t.Orderly (e :: events)) : t.now ≤ (t.serve e).2.now := by
  rw [now_serve]
  cases htime : e.time? with
  | none => exact Int.le_refl _
  | some now =>
    have hclock := h.clock
    rw [List.filterMap_cons_some htime] at hclock
    exact (List.pairwise_cons.mp hclock).1 now List.mem_cons_self

/-! ## Registries that cannot be told apart -/

/-- The store, the clock and the poller are the same, and so are the registries after a sweep. -/
structure Alike (t t' : PolledRegistry) : Prop where
  moment : t.toMoment = t'.toMoment
  looks : t.looks = t'.looks
  registry : t.registry.swept t.now = t'.registry.swept t.now

theorem Alike.refl (t : PolledRegistry) : t.Alike t := ⟨rfl, rfl, rfl⟩

/-- A question about a task changes nothing that can be told. -/
theorem alike_status (h : t.Alike t') (hd : t.registry.Distinct) (text : String) :
    (t.serve (.status text)).2.Alike t' where
  moment := h.moment
  looks := h.looks
  registry := (TaskRegistry.swept_status hd t.now text).trans h.registry

/-- Two that cannot be told apart give the same answer, and cannot be told apart afterwards. -/
theorem Alike.serve (h : t.Alike t') (ht : t.Orderly (e :: events))
    (ht' : t'.Orderly (e :: events)) :
    (t.serve e).1 = (t'.serve e).1 ∧ (t.serve e).2.Alike (t'.serve e).2 := by
  obtain ⟨⟨s, now⟩, r, looks⟩ := t
  obtain ⟨⟨s', now'⟩, r', looks'⟩ := t'
  obtain ⟨hmoment, hlooks, hr⟩ := h
  obtain ⟨rfl, rfl⟩ := Moment.mk.inj hmoment
  obtain rfl : looks = looks' := hlooks
  replace hr : r.swept now = r'.swept now := hr
  cases e with
  | submit fresh request =>
    obtain ⟨hanswer, hregistry, hstore⟩ :=
      TaskRegistry.submit_of_swept_eq hr fresh request.selection request.ops s
    exact ⟨congrArg RegistryAnswer.submitted hanswer, congrArg (Moment.mk · now) hstore, rfl,
      hregistry⟩
  | status text =>
    have hanswer := TaskRegistry.status_of_swept_eq ht.distinct ht'.distinct hr text
    refine ⟨congrArg RegistryAnswer.told hanswer, rfl, rfl, ?_⟩
    exact (TaskRegistry.swept_status ht.distinct now text).trans
      (hr.trans (TaskRegistry.swept_status ht'.distinct now text).symm)
  | poll => exact ⟨rfl, rfl, rfl, TaskRegistry.poll_of_swept_eq hr s.jobStatus⟩
  | notes id =>
    have hnoted := TaskRegistry.noted?_of_swept_eq ht.distinct ht'.distinct hr id
    exact ⟨rfl, rfl, congrArg (looks ++ Option.toList ·) hnoted, hr⟩
  | polls i =>
    simp only [PolledRegistry.serve]
    cases looks[i]? with
    | none => exact ⟨rfl, rfl, rfl, hr⟩
    | some look =>
      cases look with
      | heard id job answer => exact ⟨rfl, rfl, rfl, TaskRegistry.pollOne_of_swept_eq hr id answer⟩
      | noted | done => exact ⟨rfl, rfl, rfl, hr⟩
  | happens e =>
    refine ⟨rfl, rfl, rfl, ?_⟩
    -- What is swept now is swept at all later times.
    have hle : now ≤ ((Moment.mk s now).after e).now := ht.now_le
    have hlater := congrArg (TaskRegistry.swept ((Moment.mk s now).after e).now) hr
    rwa [TaskRegistry.swept_swept hle, TaskRegistry.swept_swept hle] at hlater

/-! ## Questions that are not put -/

/-- The invariant of two runs of which the second leaves out some questions. -/
theorem Alike.answers (h : t.Alike t') {marked : List (RegistryEvent × Bool)}
    (ht : t.Orderly (marked.map (·.1))) (ht' : t'.Orderly (marked.map (·.1)))
    (hstatus : ∀ x ∈ marked, x.2 = false → ∃ text, x.1 = .status text) :
    ((marked.zip (t.answers (marked.map (·.1)))).filter (·.1.2)).map (·.2) =
      t'.answers ((marked.filter (·.2)).map (·.1)) := by
  induction marked generalizing t t' with
  | nil => rfl
  | cons x rest ih =>
    obtain ⟨e, put⟩ := x
    obtain ⟨hx, hrest⟩ := List.forall_mem_cons.mp hstatus
    cases put with
    | true =>
      obtain ⟨hanswer, halike⟩ := h.serve ht ht'
      have htail := ih halike ht.serve ht'.serve hrest
      simp only [List.map_cons, PolledRegistry.answers, List.zip_cons_cons, List.filter_cons_of_pos,
        hanswer, htail]
    | false =>
      obtain ⟨text, rfl⟩ := hx rfl
      have htail := ih (alike_status h ht.distinct text) ht.serve
        ⟨ht'.clock, ht'.names⟩ hrest
      simpa [PolledRegistry.answers] using htail

/-- Of the questions for the status of a task, any are put or not: those that are marked with true
are. All other answers are the same, to submissions and to the questions that are put, in every run
of submissions, questions, looks of the poller, whole or step by step, and whatever happens to the
store, with a clock that is not set back and a name of its own for each task. -/
theorem answers_without_status (t : PolledRegistry) {marked : List (RegistryEvent × Bool)}
    (horderly : t.Orderly (marked.map (·.1)))
    (hstatus : ∀ x ∈ marked, x.2 = false → ∃ text, x.1 = .status text) :
    ((marked.zip (t.answers (marked.map (·.1)))).filter (·.1.2)).map (·.2) =
      t.answers ((marked.filter (·.2)).map (·.1)) :=
  (Alike.refl t).answers horderly horderly hstatus

/-- A registry with one slot, before its first call. It keeps ended tasks for a second. -/
def oneSlot : PolledRegistry :=
  { store := .empty {}, now := 0, registry := { limits := { retention := 1, maxTracked := 1 } } }

/-- A task ends, its retention is over, and a question that is not put in the second run drops it.
Then it is asked for once more, and another one is submitted. -/
def askedTwice : List (RegistryEvent × Bool) :=
  [(.submit ⟨1⟩ Traffic.touchAll, true), (.happens .dispatch, true), (.happens (.stepJob 1), true),
    (.happens (.stepJob 1), true), (.poll, true), (.happens (.clock 1000), true),
    (.status (TaskId.text ⟨1⟩), false), (.status (TaskId.text ⟨1⟩), true),
    (.submit ⟨2⟩ Traffic.touchAll, true)]

/-- In both runs it is not found, and the other one gets its slot. -/
theorem answers_without_status_askedTwice :
    ((askedTwice.zip (oneSlot.answers (askedTwice.map (·.1)))).filter (·.1.2)).map (·.2) =
        oneSlot.answers ((askedTwice.filter (·.2)).map (·.1)) ∧
      (oneSlot.answers ((askedTwice.filter (·.2)).map (·.1))).drop 6 =
        [.told (.error (.notFound (TaskId.text ⟨1⟩))),
          .submitted (.ok (TaskRegistry.accepted 1000 ⟨2⟩ 2 Traffic.touchAll.selection))] ∧
      ((oneSlot.serve (.submit ⟨1⟩ Traffic.touchAll)).2.serve
          (.submit ⟨2⟩ Traffic.touchAll)).1 =
        .submitted (.error (.overloaded "1 tasks tracked")) := by
  have horderly : oneSlot.Orderly (askedTwice.map (·.1)) := ⟨by decide, by decide⟩
  have hstatus : ∀ x ∈ askedTwice, x.2 = false → ∃ text, x.1 = .status text := by
    simp [askedTwice]
  exact ⟨answers_without_status oneSlot horderly hstatus, rfl, rfl⟩

end PolledRegistry
end RecordService
