import RecordService.Proofs.Store.Run
import RecordService.Task.Registry

/-!
# Calls of the task registry, step by step

Any number of calls are under way at once, and between two steps of one of them anything may
happen to the registry and to the store.

* `TaskCall`: where a call stands. `TaskCall.next`: its next step.
* `TaskCall.steps_submit`, `steps_status`, `steps_sweep`: the steps of a call with nothing in
  between are the call.
* `TaskCall.Goes`, `TaskCall.next_goes`: all that a step can do.
* `Traffic.Step`, `Traffic.Run`: calls begin and go on, the poller moves a task, and the store and
  the clock change, in any order.
-/

namespace RecordService

/-- A call of the registry, between two of its steps. -/
inductive TaskCall
  | submit (request : JobRequest)
  /-- Tasks have been evicted for a submission, and their slots are still in use. -/
  | swept (request : JobRequest) (gone : Nat)
  /-- A submission is due to take a slot. -/
  | reserving (request : JobRequest)
  /-- A submission has a slot, and is due to ask the store. -/
  | asking (request : JobRequest)
  /-- The store has refused the job, and the slot is still in use. -/
  | refused (why : StoreError)
  /-- The store has accepted the job, and the task is not yet tracked. -/
  | accepted (request : JobRequest) (job : Nat)
  | submitted (answer : Except TaskError Task)
  | status (text : String)
  /-- The task was found to have expired at an instant, and is due to be dropped. -/
  | expired (text : String) (id : TaskId) (since : Instant)
  /-- The task has been dropped, and its slot is still in use. -/
  | dropped (text : String)
  | told (answer : Except TaskError Task)
  | sweep
  /-- Tasks have been evicted, and their slots are still in use. -/
  | evicted (gone : Nat)
  | done (gone : Nat)

namespace TaskCall

/-- A call that has just begun. -/
def IsNew : TaskCall → Prop
  | submit _ | status _ | sweep => True
  | _ => False

instance : DecidablePred IsNew
  | submit _ | status _ | sweep => .isTrue trivial
  | swept .. | reserving _ | asking _ | refused _ | accepted .. | submitted _ | expired ..
  | dropped _ | told _ | evicted _ | done _ => .isFalse id

/-- A call that has been answered. -/
def HasEnded : TaskCall → Prop
  | submitted _ | told _ | done _ => True
  | _ => False

/-- The next step of a call, which is one change of the registry or of the store. A task that it
tracks gets the fresh name. A call that has been answered takes no more steps. -/
def next (now : Instant) (fresh : TaskId) (r : TaskRegistry) (s : Store) :
    TaskCall → TaskCall × TaskRegistry × Store
  | submit request =>
    match TaskRegistry.checkOperations request.ops with
    | .error e => (submitted (.error e), r, s)
    | .ok () => (swept request (r.evict now).1, (r.evict now).2, s)
  | swept request gone => (reserving request, r.release gone, s)
  | reserving request =>
    match r.reserve with
    | .error e => (submitted (.error e), r, s)
    | .ok r => (asking request, r, s)
  | asking request =>
    match s.startJob now request with
    | (.error e, s) => (refused e, r, s)
    | (.ok job, s) => (accepted request job, r, s)
  | refused why => (submitted (.error (.rejected why)), r.release 1, s)
  | accepted request job =>
    let task := TaskRegistry.accepted now fresh job request.selection
    (submitted (.ok task), r.insert task, s)
  | status text =>
    match (TaskId.ofText? text).bind r.find? with
    | none => (told (.error (.notFound text)), r, s)
    | some t =>
      if t.isExpired now r.limits.retention then (expired text t.id now, r, s)
      else (told (.ok t), r, s)
  | expired text id since =>
    if (r.find? id).any (·.isExpired since r.limits.retention) then (dropped text, r.remove id, s)
    else (told (.error (.notFound text)), r, s)
  | dropped text => (told (.error (.notFound text)), r.release 1, s)
  | sweep => (evicted (r.evict now).1, (r.evict now).2, s)
  | evicted gone => (done gone, r.release gone, s)
  | submitted answer => (submitted answer, r, s)
  | told answer => (told answer, r, s)
  | done gone => (done gone, r, s)

/-! ## A call by itself -/

/-- The steps of a call with nothing in between. -/
def steps (now : Instant) (fresh : TaskId) :
    Nat → TaskCall × TaskRegistry × Store → TaskCall × TaskRegistry × Store
  | 0, p => p
  | n + 1, (c, r, s) => steps now fresh n (c.next now fresh r s)

variable (now : Instant) (fresh : TaskId) (r : TaskRegistry) (s : Store)

theorem steps_succ (n : Nat) (c : TaskCall) :
    steps now fresh (n + 1) (c, r, s) = steps now fresh n (c.next now fresh r s) := rfl

theorem steps_submitted (n : Nat) (answer : Except TaskError Task) :
    steps now fresh n (submitted answer, r, s) = (submitted answer, r, s) := by
  induction n with
  | zero => rfl
  | succ n ih => rw [steps_succ, next, ih]

theorem steps_told (n : Nat) (answer : Except TaskError Task) :
    steps now fresh n (told answer, r, s) = (told answer, r, s) := by
  induction n with
  | zero => rfl
  | succ n ih => rw [steps_succ, next, ih]

/-- The last steps of a submission that has a slot. -/
theorem steps_asking (selection : Selection) (ops : List Operation) :
    steps now fresh 2 (asking ⟨selection, ops⟩, r, s) =
      (r.hand now fresh selection ops s).map .submitted id := by
  rw [steps_succ, next, TaskRegistry.hand]
  rcases s.startJob now ⟨selection, ops⟩ with ⟨e | job, s'⟩ <;> rfl

/-- A submission by itself is five steps. -/
theorem steps_submit (selection : Selection) (ops : List Operation) :
    steps now fresh 5 (submit ⟨selection, ops⟩, r, s) =
      (r.submit now fresh selection ops s).map .submitted id := by
  rw [steps_succ, next, TaskRegistry.submit]
  cases TaskRegistry.checkOperations ops with
  | error e => exact steps_submitted ..
  | ok =>
    show steps now fresh 3 (reserving ⟨selection, ops⟩, (r.sweep now).2, s) = _
    simp only [steps_succ now fresh _ _ 2, next]
    cases (r.sweep now).2.reserve with
    | error e => exact steps_submitted ..
    | ok r' => exact steps_asking ..

theorem find?_of_find? {id : TaskId} {t : Task} (h : r.find? id = some t) :
    r.find? t.id = some t := by
  have hid : t.id = id := by simpa using List.find?_some h
  rw [hid, h]

/-- A call for the status of a task by itself is three steps. -/
theorem steps_status (text : String) :
    steps now fresh 3 (status text, r, s) =
      (told (r.status now text).1, (r.status now text).2, s) := by
  rw [steps_succ, next, TaskRegistry.status]
  cases hfound : (TaskId.ofText? text).bind r.find? with
  | none => exact steps_told ..
  | some t =>
    obtain ⟨id, -, hid⟩ := Option.bind_eq_some_iff.mp hfound
    have hagain : r.find? t.id = some t := find?_of_find? r hid
    by_cases hexpired : t.isExpired now r.limits.retention
    · simp only [hexpired, if_true]
      rw [steps_succ, next, hagain]
      simp only [Option.any_some, hexpired, if_true]
      rfl
    · simp only [hexpired, Bool.false_eq_true, if_false]
      exact steps_told ..

/-- A sweep by itself is two steps. -/
theorem steps_sweep :
    steps now fresh 2 (sweep, r, s) = (done (r.sweep now).1, (r.sweep now).2, s) := rfl

/-! ## What a step can do -/

/-- A call goes from one place to the next, and the registry and the store with it. -/
inductive Goes (now : Instant) (fresh : TaskId) (r : TaskRegistry) (s : Store) :
    TaskCall → TaskCall → TaskRegistry → Store → Prop
  | invalid {request : JobRequest} {e : TaskError}
    (h : TaskRegistry.checkOperations request.ops = .error e) :
    Goes now fresh r s (submit request) (submitted (.error e)) r s
  | evicts {request : JobRequest} (h : TaskRegistry.checkOperations request.ops = .ok ()) :
    Goes now fresh r s (submit request) (swept request (r.evict now).1) (r.evict now).2 s
  | frees {request : JobRequest} {gone : Nat} :
    Goes now fresh r s (swept request gone) (reserving request) (r.release gone) s
  | full {request : JobRequest} {e : TaskError} (h : r.reserve = .error e) :
    Goes now fresh r s (reserving request) (submitted (.error e)) r s
  | takes {request : JobRequest} {r' : TaskRegistry} (h : r.reserve = .ok r') :
    Goes now fresh r s (reserving request) (asking request) r' s
  | refusal {request : JobRequest} {e : StoreError} {s' : Store}
    (h : s.startJob now request = (.error e, s')) :
    Goes now fresh r s (asking request) (refused e) r s'
  | acceptance {request : JobRequest} {job : Nat} {s' : Store}
    (h : s.startJob now request = (.ok job, s')) :
    Goes now fresh r s (asking request) (accepted request job) r s'
  | givesBack {why : StoreError} :
    Goes now fresh r s (refused why) (submitted (.error (.rejected why))) (r.release 1) s
  | tracks {request : JobRequest} {job : Nat} {task : Task}
    (h : task = TaskRegistry.accepted now fresh job request.selection) :
    Goes now fresh r s (accepted request job) (submitted (.ok task)) (r.insert task) s
  | missing {text : String} (h : (TaskId.ofText? text).bind r.find? = none) :
    Goes now fresh r s (status text) (told (.error (.notFound text))) r s
  | finds {text : String} {task : Task} (h : (TaskId.ofText? text).bind r.find? = some task)
    (hexpired : task.isExpired now r.limits.retention = false) :
    Goes now fresh r s (status text) (told (.ok task)) r s
  | findsExpired {text : String} {task : Task}
    (h : (TaskId.ofText? text).bind r.find? = some task)
    (hexpired : task.isExpired now r.limits.retention) :
    Goes now fresh r s (status text) (expired text task.id now) r s
  | drops {text : String} {id : TaskId} {since : Instant} {task : Task}
    (h : r.find? id = some task) (hexpired : task.isExpired since r.limits.retention) :
    Goes now fresh r s (expired text id since) (dropped text) (r.remove id) s
  | tooLate {text : String} {id : TaskId} {since : Instant}
    (h : (r.find? id).any (·.isExpired since r.limits.retention) = false) :
    Goes now fresh r s (expired text id since) (told (.error (.notFound text))) r s
  | forgets {text : String} :
    Goes now fresh r s (dropped text) (told (.error (.notFound text))) (r.release 1) s
  | sweeps : Goes now fresh r s sweep (evicted (r.evict now).1) (r.evict now).2 s
  | ends {gone : Nat} : Goes now fresh r s (evicted gone) (done gone) (r.release gone) s
  | rests {c : TaskCall} (h : c.HasEnded) : Goes now fresh r s c c r s

theorem next_goes (c : TaskCall) :
    Goes now fresh r s c (c.next now fresh r s).1 (c.next now fresh r s).2.1
      (c.next now fresh r s).2.2 := by
  cases c with
  | submit request =>
    rw [next]
    cases h : TaskRegistry.checkOperations request.ops with
    | error e => exact .invalid h
    | ok => exact .evicts h
  | swept request gone => exact .frees
  | reserving request =>
    rw [next]
    cases h : r.reserve with
    | error e => exact .full h
    | ok r' => exact .takes h
  | asking request =>
    rw [next]
    rcases h : s.startJob now request with ⟨e | job, s'⟩
    · exact .refusal h
    · exact .acceptance h
  | refused why => exact .givesBack
  | accepted request job => exact .tracks rfl
  | status text =>
    rw [next]
    cases h : (TaskId.ofText? text).bind r.find? with
    | none => exact .missing h
    | some task =>
      cases hexpired : task.isExpired now r.limits.retention with
      | true =>
        simp only [hexpired, if_true]
        exact .findsExpired h hexpired
      | false =>
        simp only [hexpired, Bool.false_eq_true, if_false]
        exact .finds h hexpired
  | expired text id since =>
    rw [next]
    cases h : (r.find? id).any (·.isExpired since r.limits.retention) with
    | true =>
      obtain ⟨task, hfound, hexpired⟩ := Option.any_eq_true _ _ |>.mp h
      exact .drops hfound hexpired
    | false => exact .tooLate h
  | dropped text => exact .forgets
  | sweep => exact .sweeps
  | evicted gone => exact .ends
  | submitted answer => exact .rests trivial
  | told answer => exact .rests trivial
  | done gone => exact .rests trivial

end TaskCall

/-! ## The poller -/

namespace TaskRegistry

/-- The poller has an answer about the job of one task, which may since have been dropped. -/
def pollOne (now : Instant) (id : TaskId) (answer : Except StoreError JobState)
    (r : TaskRegistry) : TaskRegistry :=
  { r with tasks := r.tasks.map fun t => if t.id = id then t.poll now fun _ => answer else t }

end TaskRegistry

/-! ## All calls together -/

/-- The registry before its store, and the calls of it that have begun. -/
structure Traffic extends Moment where
  registry : TaskRegistry
  calls : List TaskCall

namespace Traffic

/-- Something happens: a call begins, takes its next step under a name that no tracked task has,
the poller gets an answer, or the store does something that is no acceptance of a job, or the clock
is set. -/
inductive Step : Traffic → Traffic → Prop
  | begins (t : Traffic) {c : TaskCall} (h : c.IsNew) : Step t { t with calls := t.calls ++ [c] }
  | goes (t : Traffic) {front back : List TaskCall} {c : TaskCall} (fresh : TaskId)
    (hcalls : t.calls = front ++ c :: back) (hfresh : ∀ task ∈ t.registry.tasks, task.id ≠ fresh) :
    Step t
      { t with
        calls := front ++ (c.next t.now fresh t.registry t.store).1 :: back
        registry := (c.next t.now fresh t.registry t.store).2.1
        store := (c.next t.now fresh t.registry t.store).2.2 }
  | polled (t : Traffic) (id : TaskId) (answer : Except StoreError JobState) :
    Step t { t with registry := t.registry.pollOne t.now id answer }
  | happens (t : Traffic) {e : StoreEvent} (h : ∀ request, e ≠ .startJob request) :
    Step t { t with toMoment := t.toMoment.after e }

/-- Any number of steps. -/
inductive Run (t : Traffic) : Traffic → Prop
  | start : Run t t
  | next {t' t'' : Traffic} (h : Run t t') (hstep : Step t' t'') : Run t t''

end Traffic
end RecordService
