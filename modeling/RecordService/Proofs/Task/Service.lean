import RecordService.Proofs.Task.Slots

/-!
# The task service in the course of time

The registry with its store, the calls of it that have begun, and the poller. What happens to them
is data, one event after the other and in any order, so that what a run has answered, and what it
has done to the store, can be computed.

* `PollerLook`: what the poller has in hand about one task. `PollerLook.next`: its next step.
* `TaskEvent`, `TaskService.after`, `TaskService.run`: what happens, one event at a time.
* `TaskService.Orderly`: the clock is never set back, and each task gets a name of its own.
* `TaskService.answers`: what the calls for the status of a task are told, and when.
* `TaskService.after_cases`: all that an event can do.
* `TaskService.storeEvents`, `after_toMoment`: what a run, and each event of it, does to the store.
* `TaskService.after_step`, `after_accounted`: an event is a step of the traffic, so the slots, the
  tasks and the jobs are accounted for.
-/

namespace RecordService

/-! ## The poller -/

/-- What the poller has in hand about one of the tasks that were running when it looked. -/
inductive PollerLook
  | noted (id : TaskId) (job : Nat)
  /-- The store has answered about the job, and the answer is not yet taken into account. -/
  | heard (id : TaskId) (job : Nat) (answer : Except StoreError JobState)
  | done

namespace PollerLook

/-- The next step of the poller with a task: it asks the store, or finishes the task. -/
def next (now : Instant) (r : TaskRegistry) (s : Store) : PollerLook → PollerLook × TaskRegistry
  | noted id job => (heard id job (s.jobStatus job), r)
  | heard id _ answer => (done, r.pollOne now id answer)
  | done => (done, r)

end PollerLook

/-! ## Calls for the status of a task -/

namespace TaskCall

/-- The text that a call for the status of a task was given, as long as it is not answered. -/
def text? : TaskCall → Option String
  | status text | expired text _ _ | dropped text => some text
  | _ => none

/-- The task that a call asks for. -/
def asked? (c : TaskCall) : Option TaskId := c.text?.bind TaskId.ofText?

/-- What a call for the status of a task was told. -/
def told? : TaskCall → Option (Except TaskError Task)
  | told answer => some answer
  | _ => none

end TaskCall

/-! ## Events -/

/-- Something that happens to the task service. -/
inductive TaskEvent
  | begins (c : TaskCall)
  /-- A call, given by its place among all that have begun, takes its next step. -/
  | goes (i : Nat) (fresh : TaskId)
  /-- The poller notes a task, if it is running. -/
  | notes (id : TaskId)
  /-- The poller goes on with a task that it has noted. -/
  | polls (i : Nat)
  | happens (e : StoreEvent)

/-- The registry with its store, the calls that have begun, and the poller. -/
structure TaskService extends Traffic where
  looks : List PollerLook

namespace TaskService

/-- Before the first call. -/
def initial (settings : StoreSettings) (limits : TaskLimits) (now : Instant) : TaskService :=
  { Traffic.initial settings limits now with looks := [] }

/-- The service after an event. -/
def after (t : TaskService) : TaskEvent → TaskService
  | .begins c => { t with calls := t.calls ++ [c] }
  | .goes i fresh =>
    match t.calls[i]? with
    | none => t
    | some c =>
      let (c, registry, store) := c.next t.now fresh t.registry t.store
      { t with calls := t.calls.set i c, registry, store }
  | .notes id =>
    match t.registry.find? id with
    | none => t
    | some task =>
      if task.state = .running then { t with looks := t.looks ++ [.noted id task.job] } else t
  | .polls i =>
    match t.looks[i]? with
    | none => t
    | some look =>
      let (look, registry) := look.next t.now t.registry t.store
      { t with looks := t.looks.set i look, registry }
  | .happens e => { t with toMoment := t.toMoment.after e }

/-- The service after a sequence of events. -/
def run (t : TaskService) (events : List TaskEvent) : TaskService := events.foldl after t

/-- The tasks that submissions have returned, each as it was then. -/
def returned (t : TaskService) : List Task := t.calls.filterMap TaskCall.task?

/-- An event that can happen: only new calls begin, a task that a call has tracked gets a name that
none has had, jobs are accepted through calls, and the clock is not set back. -/
def Allows (t : TaskService) : TaskEvent → Prop
  | .begins c => c.IsNew
  | .goes _ fresh => ∀ task ∈ t.returned, task.id ≠ fresh
  | .happens (.startJob _) => False
  | .happens (.clock now) => t.now ≤ now
  | .notes _ | .polls _ | .happens _ => True

/-- Each event can happen when those before it have. -/
def Orderly (t : TaskService) : List TaskEvent → Prop
  | [] => True
  | e :: rest => t.Allows e ∧ (t.after e).Orderly rest

instance (t : TaskService) : DecidablePred t.Allows
  | .begins c => inferInstanceAs (Decidable c.IsNew)
  | .goes _ fresh => inferInstanceAs (Decidable (∀ task ∈ t.returned, task.id ≠ fresh))
  | .happens (.startJob _) => .isFalse id
  | .happens (.clock now) => inferInstanceAs (Decidable (t.now ≤ now))
  | .notes _ | .polls _ | .happens (.put ..) | .happens (.delete ..) | .happens (.operate ..)
  | .happens .dispatch | .happens (.stepJob _) | .happens (.pause _) | .happens (.node ..)
  | .happens (.fault _) => .isTrue trivial

instance decidableOrderly (t : TaskService) : DecidablePred t.Orderly
  | [] => .isTrue trivial
  | e :: rest =>
    have := decidableOrderly (t.after e) rest
    inferInstanceAs (Decidable (t.Allows e ∧ (t.after e).Orderly rest))

/-! ## What is answered -/

/-- What an event tells about a task. -/
def answer? (t : TaskService) (id : TaskId) : TaskEvent → Option (Except TaskError Task)
  | .goes i fresh =>
    match t.calls[i]? with
    | none => none
    | some c =>
      if c.asked? = some id then (c.next t.now fresh t.registry t.store).1.told? else none
  | _ => none

/-- What an event tells about a task, and when. -/
def tells (t : TaskService) (id : TaskId) (e : TaskEvent) :
    List (Instant × Except TaskError Task) := (t.answer? id e).toList.map fun a => (t.now, a)

/-- What a sequence of events tells about a task, one answer after the other. -/
def answers (t : TaskService) (id : TaskId) :
    List TaskEvent → List (Instant × Except TaskError Task)
  | [] => []
  | e :: rest => t.tells id e ++ (t.after e).answers id rest

/-! ## What happens to the store -/

/-- What an event does to the store. -/
def storeEvent? (t : TaskService) : TaskEvent → Option StoreEvent
  | .goes i _ =>
    match t.calls[i]? with
    | some (.asking request) => some (.startJob request)
    | _ => none
  | .happens e => some e
  | _ => none

/-- What a sequence of events does to the store. -/
def storeEvents (t : TaskService) : List TaskEvent → List StoreEvent
  | [] => []
  | e :: rest => (t.storeEvent? e).toList ++ (t.after e).storeEvents rest

/-! ## Runs -/

variable {t : TaskService} {e : TaskEvent} {events later : List TaskEvent} {id : TaskId}

theorem storeEvents_append (t : TaskService) (events later : List TaskEvent) :
    t.storeEvents (events ++ later) =
      t.storeEvents events ++ (t.run events).storeEvents later := by
  induction events generalizing t with
  | nil => rfl
  | cons e rest ih =>
    rw [List.cons_append, storeEvents, storeEvents, ih, List.append_assoc]
    rfl

theorem Orderly.of_append (h : t.Orderly (events ++ later)) :
    t.Orderly events ∧ (t.run events).Orderly later := by
  induction events generalizing t with
  | nil => exact ⟨trivial, h⟩
  | cons e rest ih =>
    obtain ⟨hrest, hlater⟩ := ih h.2
    exact ⟨⟨h.1, hrest⟩, hlater⟩

/-- All that an event can do: a call begins, a call is replaced by what its next step makes of it,
the poller notes a running task or goes on with one, or something happens to the store; or there is
no such call, task or look, and nothing happens. -/
theorem after_cases (t : TaskService) (e : TaskEvent) :
    (∃ c, e = .begins c ∧ t.after e = { t with calls := t.calls ++ [c] }) ∨
      (∃ i fresh c front back, e = .goes i fresh ∧ t.calls[i]? = some c ∧
        t.calls = front ++ c :: back ∧
        t.after e =
          { t with
            calls := front ++ (c.next t.now fresh t.registry t.store).1 :: back
            registry := (c.next t.now fresh t.registry t.store).2.1
            store := (c.next t.now fresh t.registry t.store).2.2 }) ∨
      (∃ id task, e = .notes id ∧ t.registry.find? id = some task ∧ task.state = .running ∧
        t.after e = { t with looks := t.looks ++ [.noted id task.job] }) ∨
      (∃ i look, e = .polls i ∧ look ∈ t.looks ∧
        t.after e =
          { t with
            looks := t.looks.set i (look.next t.now t.registry t.store).1
            registry := (look.next t.now t.registry t.store).2 }) ∨
      (∃ e', e = .happens e' ∧ t.after e = { t with toMoment := t.toMoment.after e' }) ∨
      (t.after e = t ∧ t.storeEvent? e = none ∧ ∀ id, t.answer? id e = none) := by
  cases e with
  | begins c => exact .inl ⟨c, rfl, rfl⟩
  | goes i fresh =>
    cases hc : t.calls[i]? with
    | none =>
      refine .inr (.inr (.inr (.inr (.inr ⟨?_, ?_, fun id => ?_⟩))))
      · simp only [after, hc]
      · simp only [storeEvent?, hc]
      · simp only [answer?, hc]
    | some c =>
      obtain ⟨hi, hget⟩ := List.getElem?_eq_some_iff.mp hc
      refine .inr (.inl ⟨i, fresh, c, t.calls.take i, t.calls.drop (i + 1), rfl, hc, ?_, ?_⟩)
      · rw [← hget, ← List.drop_eq_getElem_cons hi, List.take_append_drop]
      · simp only [after, hc, List.set_eq_take_append_cons_drop, if_pos hi]
  | notes id =>
    cases hfound : t.registry.find? id with
    | none =>
      refine .inr (.inr (.inr (.inr (.inr ⟨?_, rfl, fun _ => rfl⟩))))
      simp only [after, hfound]
    | some task =>
      by_cases hrunning : task.state = .running
      · refine .inr (.inr (.inl ⟨id, task, rfl, hfound, hrunning, ?_⟩))
        simp only [after, hfound, if_pos hrunning]
      · refine .inr (.inr (.inr (.inr (.inr ⟨?_, rfl, fun _ => rfl⟩))))
        simp only [after, hfound, if_neg hrunning]
  | polls i =>
    cases hlook : t.looks[i]? with
    | none =>
      refine .inr (.inr (.inr (.inr (.inr ⟨?_, rfl, fun _ => rfl⟩))))
      simp only [after, hlook]
    | some look =>
      refine .inr (.inr (.inr (.inl ⟨i, look, rfl, List.mem_of_getElem? hlook, ?_⟩)))
      simp only [after, hlook]
  | happens e => exact .inr (.inr (.inr (.inr (.inl ⟨e, rfl, rfl⟩))))

/-- A step of a call accepts a job, or leaves the store alone. -/
theorem storeEvent?_goes {i : Nat} {c : TaskCall} (hc : t.calls[i]? = some c) (fresh : TaskId) :
    (∃ request, c = .asking request ∧
        t.storeEvent? (.goes i fresh) = some (.startJob request) ∧
        (c.next t.now fresh t.registry t.store).2.2 = (t.store.startJob t.now request).2) ∨
      (t.storeEvent? (.goes i fresh) = none ∧
        (c.next t.now fresh t.registry t.store).2.2 = t.store) := by
  rw [storeEvent?, hc]
  have hgoes := c.next_goes t.now fresh t.registry t.store
  generalize c.next t.now fresh t.registry t.store = p at hgoes
  obtain ⟨c', r', s'⟩ := p
  have hgoes : TaskCall.Goes t.now fresh t.registry t.store c c' r' s' := hgoes
  cases hgoes with
  | refusal h | acceptance h => exact .inl ⟨_, rfl, rfl, by rw [h]⟩
  | rests h =>
    refine .inr ⟨?_, rfl⟩
    cases c with
    | asking => exact h.elim
    | _ => rfl
  | _ => exact .inr ⟨rfl, rfl⟩

/-- The store is where its own events lead. -/
theorem after_toMoment (t : TaskService) (e : TaskEvent) :
    (t.after e).toMoment = t.toMoment.run (t.storeEvent? e).toList := by
  rcases t.after_cases e with ⟨c, rfl, h⟩ | ⟨i, fresh, c, front, back, rfl, hc, -, h⟩ |
    ⟨id, task, rfl, -, -, h⟩ | ⟨i, look, rfl, -, h⟩ | ⟨e', rfl, h⟩ | ⟨h, hnone, -⟩
  · rw [h]
    rfl
  · rw [h]
    rcases storeEvent?_goes hc fresh with ⟨request, -, hevent, hstore⟩ | ⟨hevent, hstore⟩
    · rw [hevent, hstore]
      rfl
    · rw [hevent, hstore]
      rfl
  · rw [h]
    rfl
  · rw [h]
    rfl
  · rw [h]
    rfl
  · rw [h, hnone]
    rfl

/-! ## An event is a step -/

/-- An event leaves the traffic as it is or is a step of it. -/
theorem after_step (h : t.toTraffic.Accounted) (he : t.Allows e) :
    (t.after e).toTraffic = t.toTraffic ∨ Traffic.Step t.toTraffic (t.after e).toTraffic := by
  rcases t.after_cases e with
    ⟨c, rfl, hafter⟩ | ⟨i, fresh, c, front, back, rfl, -, hcalls, hafter⟩ |
    ⟨id, task, -, -, -, hafter⟩ | ⟨i, look, -, -, hafter⟩ | ⟨e', rfl, hafter⟩ | ⟨hafter, -, -⟩
  · rw [hafter]
    exact .inr (.begins _ he)
  · have hfresh : ∀ task ∈ t.registry.tasks, task.id ≠ fresh := by
      intro task htask
      obtain ⟨c', hc', task', htask', hid, -⟩ := h.tasks task htask
      exact hid ▸ he task' (List.mem_filterMap.mpr ⟨c', hc', htask'⟩)
    rw [hafter]
    exact .inr (.goes t.toTraffic fresh hcalls hfresh)
  · rw [hafter]
    exact .inl rfl
  · rw [hafter]
    cases look with
    | noted id job => exact .inl rfl
    | heard id job answer => exact .inr (.polled _ id answer)
    | done => exact .inl rfl
  · rw [hafter]
    exact .inr (.happens _ fun request hreq => by subst hreq; exact he)
  · rw [hafter]
    exact .inl rfl

theorem after_accounted (h : t.toTraffic.Accounted) (he : t.Allows e) :
    (t.after e).toTraffic.Accounted := by
  rcases after_step h he with hsame | hstep
  · exact hsame ▸ h
  · exact h.step hstep

end TaskService
end RecordService
