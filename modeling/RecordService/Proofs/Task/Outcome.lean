import RecordService.Proofs.Job.Endings
import RecordService.Proofs.Job.Tally
import RecordService.Proofs.Task.Lifecycle

/-!
# A task ends as its job has ended

The poller asks the store about a job, and at some later time writes what it has heard into the
task. In between the job may end and may be forgotten, and calls, faults and the clock go on. What a
task shows is nevertheless what has come of its own job: the job ended so, or its outcome was
forgotten before the poller could hear of it.

* `TaskState.Agrees`: the state of a task is what has come of its job.
* `Moment.Accepts.stateAfter`: every answer of the store about an accepted job leads to such a
  state.
* `TaskService.Follows`: the calls, the poller and the tasks agree with the jobs.
  `TaskService.Follows.after`, `Follows.run`: they always do.
* `TaskService.outcome_of_job`: what is told about a task agrees with its job.
-/

namespace RecordService

/-- The reason that a task gives when the store does not know its job any more. -/
def forgottenReason : String := "job is no longer known to the store"

/-- The state of a task is what has come of its job in the course of the store's events. -/
def TaskState.Agrees (m : Moment) (jobs : List StoreEvent) (job : Nat) : TaskState → Prop
  | running => True
  | complete n _ => ∃ ended, m.Ends jobs job (.done n) ended
  | failed reason _ =>
    (∃ ended, m.Ends jobs job (.failed reason) ended) ∨
      (reason = forgottenReason ∧ m.Forgets jobs job)

/-- What the poller has in hand is about a task that a submission has returned, and what it has
heard agrees with the job. -/
def PollerLook.Agrees (m : Moment) (jobs : List StoreEvent) (returned : List Task) :
    PollerLook → Prop
  | noted id job => ∃ task ∈ returned, task.id = id ∧ task.job = job
  | heard id job answer =>
    (∃ task ∈ returned, task.id = id ∧ task.job = job) ∧
      ∀ now, (Task.stateAfter now answer).Agrees m jobs job
  | done => True

variable {m : Moment} {jobs : List StoreEvent} {job : Nat}

theorem TaskState.Agrees.append {state : TaskState} (h : state.Agrees m jobs job)
    (later : List StoreEvent) : state.Agrees m (jobs ++ later) job := by
  cases state with
  | running => trivial
  | complete n at_ =>
    obtain ⟨ended, hends⟩ := h
    exact ⟨ended, hends.append later⟩
  | failed reason at_ =>
    rcases h with ⟨ended, hends⟩ | ⟨hreason, hforgets⟩
    · exact .inl ⟨ended, hends.append later⟩
    · exact .inr ⟨hreason, hforgets.append later⟩

theorem PollerLook.Agrees.append {look : PollerLook} {returned returned' : List Task}
    (h : look.Agrees m jobs returned) (hkept : ∀ task ∈ returned, task ∈ returned')
    (later : List StoreEvent) : look.Agrees m (jobs ++ later) returned' := by
  cases look with
  | noted id job =>
    obtain ⟨task, htask, hsame⟩ := h
    exact ⟨task, hkept task htask, hsame⟩
  | heard id job answer =>
    obtain ⟨⟨task, htask, hsame⟩, hagrees⟩ := h
    exact ⟨⟨task, hkept task htask, hsame⟩, fun now => (hagrees now).append later⟩
  | done => trivial

/-- An answer that does not speak of the job leaves a task running. -/
theorem Task.stateAfter_error {e : StoreError} (h : ∀ n, e ≠ .jobNotFound n) (now : Instant) :
    Task.stateAfter now (.error e) = .running := by
  cases e with
  | jobNotFound n => exact absurd rfl (h n)
  | _ => rfl

/-- Whatever the store answers about an accepted job, a task that takes it over agrees with the
job. -/
theorem Moment.Accepts.stateAfter (h : m.Accepts jobs job) (hfirst : m.store.jobNumbers = [])
    (now : Instant) :
    (Task.stateAfter now ((m.run jobs).store.jobStatus job)).Agrees m jobs job := by
  rcases (h.fate hfirst).jobStatus_cases with
    ⟨e, hstatus, he⟩ | hstatus | ⟨outcome, ended, hends, hstatus⟩ | ⟨hforgets, hstatus⟩
  · rw [hstatus, Task.stateAfter_error he]
    trivial
  · rw [hstatus]
    trivial
  · rw [hstatus]
    cases outcome with
    | inProgress => trivial
    | done n => exact ⟨ended, hends⟩
    | failed reason => exact .inl ⟨ended, hends⟩
  · rw [hstatus]
    exact .inr ⟨rfl, hforgets⟩

/-- A job is that of a call after a step if it was before, or if the store has just accepted it. -/
theorem TaskCall.Goes.job_cases {now : Instant} {fresh : TaskId} {c c' : TaskCall}
    {r r' : TaskRegistry} {s s' : Store} (h : Goes now fresh r s c c' r' s')
    (hjob : c'.job? = some job) :
    c.job? = some job ∨ ∃ request, c = asking request ∧ (s.startJob now request).1 = .ok job := by
  cases h with
  | acceptance hstart =>
    obtain rfl := Option.some.inj hjob
    exact .inr ⟨_, rfl, by rw [hstart]⟩
  | tracks htask =>
    subst htask
    exact .inl hjob
  | rests => exact .inl hjob
  | _ => cases hjob

namespace TaskService

variable {t : TaskService} {e : TaskEvent} {events : List TaskEvent} {id : TaskId}

/-! ## The jobs, the calls, the poller and the tasks -/

/-- The store has come to where it is through the events, which have accepted the jobs of all calls;
no two returned tasks have the same name; and what the poller has heard and what the tasks show
agrees with the jobs. -/
structure Follows (t : TaskService) (m : Moment) (jobs : List StoreEvent) : Prop where
  reached : m.run jobs = t.toMoment
  accounted : t.toTraffic.Accounted
  accepts : ∀ c ∈ t.calls, ∀ n, c.job? = some n → m.Accepts jobs n
  alone : ∀ x ∈ t.returned, ∀ y ∈ t.returned, x.id = y.id → x = y
  looks : ∀ look ∈ t.looks, look.Agrees m jobs t.returned
  tracked : ∀ task ∈ t.registry.tasks, task.state.Agrees m jobs task.job

theorem returned_subset (he : t.Allows e) : ∀ task ∈ t.returned, task ∈ (t.after e).returned := by
  intro task htask
  rcases tracked_after he task.id with ⟨hsame, -⟩ | ⟨new, -, -, hreturned, -⟩
  · exact hsame ▸ htask
  · exact (hreturned task).mpr (.inl htask)

/-- The job of a returned task was accepted. -/
theorem Follows.accepts_returned (h : t.Follows m jobs) {task : Task} (htask : task ∈ t.returned) :
    m.Accepts jobs task.job := by
  obtain ⟨c, hc, hsome⟩ := List.mem_filterMap.mp htask
  refine h.accepts c hc task.job ?_
  unfold TaskCall.task? at hsome
  split at hsome
  · cases hsome
    rfl
  · cases hsome

/-- A tracked task has been returned under its name and with its job. -/
theorem Follows.returned_of_tracked (h : t.Follows m jobs) {task : Task}
    (htask : task ∈ t.registry.tasks) :
    ∃ x ∈ t.returned, x.id = task.id ∧ x.job = task.job := by
  obtain ⟨c, hc, x, hx, hsame⟩ := h.accounted.tasks task htask
  exact ⟨x, List.mem_filterMap.mpr ⟨c, hc, hx⟩, hsame⟩

theorem Follows.accepts_after (h : t.Follows m jobs) (he : t.Allows e) :
    ∀ c ∈ (t.after e).calls, ∀ n, c.job? = some n →
      m.Accepts (jobs ++ (t.storeEvent? e).toList) n := by
  intro c hc n hn
  have hold : c ∈ t.calls → m.Accepts (jobs ++ (t.storeEvent? e).toList) n :=
    fun hc => (h.accepts c hc n hn).append _
  rcases t.after_cases e with
    ⟨c', rfl, hafter⟩ | ⟨i, fresh, c', front, back, rfl, hi, hcalls, hafter⟩ |
    ⟨_, task, -, -, -, hafter⟩ | ⟨i, look, -, -, hafter⟩ | ⟨e', -, hafter⟩ | ⟨hafter, -, -⟩
  · rw [hafter] at hc
    rcases List.mem_append.mp hc with hc | hc
    · exact hold hc
    · obtain rfl := List.mem_singleton.mp hc
      cases c with
      | submit | status | sweep => cases hn
      | _ => exact he.elim
  · rw [hafter] at hc
    rcases List.mem_append.mp hc with hfront | hc
    · exact hold (hcalls ▸ List.mem_append_left _ hfront)
    · rcases List.mem_cons.mp hc with rfl | hback
      · rcases (c'.next_goes t.now fresh t.registry t.store).job_cases hn with
          hn | ⟨request, rfl, haccepted⟩
        · exact (h.accepts c' (List.mem_of_getElem? hi) n hn).append _
        · have hevent : t.storeEvent? (.goes i fresh) = some (.startJob request) := by
            rw [storeEvent?, hi]
          rw [hevent]
          refine ⟨jobs, request, [], rfl, ?_⟩
          rw [h.reached]
          exact haccepted
      · exact hold (hcalls ▸ List.mem_append_right _ (List.mem_cons_of_mem _ hback))
  · exact hold (by rwa [hafter] at hc)
  · exact hold (by rwa [hafter] at hc)
  · exact hold (by rwa [hafter] at hc)
  · exact hold (by rwa [hafter] at hc)

theorem Follows.alone_after (h : t.Follows m jobs) (he : t.Allows e) :
    ∀ x ∈ (t.after e).returned, ∀ y ∈ (t.after e).returned, x.id = y.id → x = y := by
  intro x hx y hy hid
  rcases tracked_after he x.id with ⟨hsame, -⟩ | ⟨new, -, hfresh, hreturned, -⟩
  · rw [hsame] at hx hy
    exact h.alone x hx y hy hid
  · rcases (hreturned x).mp hx with hx | rfl
    · rcases (hreturned y).mp hy with hy | rfl
      · exact h.alone x hx y hy hid
      · exact absurd hid (hfresh x hx)
    · rcases (hreturned y).mp hy with hy | rfl
      · exact absurd hid.symm (hfresh y hy)
      · rfl

/-- The poller notes a task that has been returned, and what the store then answers agrees with the
job. -/
theorem Follows.looks_after (h : t.Follows m jobs) (hfirst : m.store.jobNumbers = [])
    (he : t.Allows e) : ∀ look ∈ (t.after e).looks,
      look.Agrees m (jobs ++ (t.storeEvent? e).toList) (t.after e).returned := by
  intro look hlook
  have hold : look ∈ t.looks →
      look.Agrees m (jobs ++ (t.storeEvent? e).toList) (t.after e).returned :=
    fun hlook => (h.looks look hlook).append (returned_subset he) _
  rcases t.after_cases e with ⟨c', -, hafter⟩ | ⟨i, fresh, c', front, back, -, -, -, hafter⟩ |
    ⟨id, task, -, hfound, -, hafter⟩ | ⟨i, look', rfl, hlook', hafter⟩ | ⟨e', -, hafter⟩ |
    ⟨hafter, -, -⟩
  · exact hold (by rwa [hafter] at hlook)
  · exact hold (by rwa [hafter] at hlook)
  · rw [hafter] at hlook
    rcases List.mem_append.mp hlook with hlook | hlook
    · exact hold hlook
    · obtain rfl := List.mem_singleton.mp hlook
      obtain ⟨x, hx, hid, hjob⟩ := h.returned_of_tracked (List.mem_of_find?_eq_some hfound)
      have hname : task.id = id := by simpa using List.find?_some hfound
      exact ⟨x, returned_subset he x hx, hid.trans hname, hjob⟩
  · rw [hafter] at hlook
    rcases List.mem_or_eq_of_mem_set hlook with hlook | rfl
    · exact hold hlook
    · refine PollerLook.Agrees.append ?_ (returned_subset he) _
      have hagrees := h.looks look' hlook'
      cases look' with
      | noted id job =>
        obtain ⟨x, hx, hid, rfl⟩ := hagrees
        refine ⟨⟨x, hx, hid, rfl⟩, fun now => ?_⟩
        have hstate := (h.accepts_returned hx).stateAfter hfirst now
        rwa [h.reached] at hstate
      | heard | done => trivial
  · exact hold (by rwa [hafter] at hlook)
  · exact hold (by rwa [hafter] at hlook)

/-- A task that takes over what the poller has heard about its name agrees with its own job. -/
theorem Follows.tracked_poll (h : t.Follows m jobs) {answer : Except StoreError JobState}
    {task : Task} (hlook : .heard task.id job answer ∈ t.looks) (htask : task ∈ t.registry.tasks) :
    (task.poll t.now fun _ => answer).state.Agrees m jobs task.job := by
  obtain ⟨⟨x, hx, hxid, hxjob⟩, hagrees⟩ := h.looks _ hlook
  obtain ⟨y, hy, hyid, hyjob⟩ := h.returned_of_tracked htask
  obtain rfl := h.alone x hx y hy (hxid.trans hyid.symm)
  by_cases hrunning : task.state = .running
  · rw [Task.poll_of_running hrunning]
    exact hyjob ▸ hxjob.symm ▸ hagrees t.now
  · rw [Task.poll_of_ended hrunning]
    exact h.tracked task htask

theorem Follows.tracked_after (h : t.Follows m jobs) (he : t.Allows e) :
    ∀ task ∈ (t.after e).registry.tasks,
      task.state.Agrees m (jobs ++ (t.storeEvent? e).toList) task.job := by
  intro task htask
  refine TaskState.Agrees.append ?_ _
  have hnamed : task ∈ (t.after e).registry.named task.id :=
    List.mem_filter.mpr ⟨htask, beq_self_eq_true _⟩
  have hold : task ∈ t.registry.named task.id → task.state.Agrees m jobs task.job :=
    fun hmem => h.tracked task (List.mem_filter.mp hmem).1
  rcases TaskService.tracked_after he task.id with
    ⟨-, hsame | hevicted | ⟨-, hnone⟩ | ⟨job, answer, hlook, hpolled⟩⟩ | ⟨new, hrunning, -, -, hnew⟩
  · exact hold (hsame ▸ hnamed)
  · rw [hevicted] at hnamed
    exact hold (List.mem_filter.mp hnamed).1
  · rw [hnone] at hnamed
    cases hnamed
  · rw [hpolled] at hnamed
    obtain ⟨x, hx, rfl⟩ := List.mem_map.mp hnamed
    rw [Task.poll_id] at hlook
    rw [Task.poll_job]
    exact h.tracked_poll hlook (List.mem_filter.mp hx).1
  · rw [hnew] at hnamed
    rcases List.mem_append.mp hnamed with hmem | hmem
    · exact hold hmem
    · split at hmem
      · obtain rfl := List.mem_singleton.mp hmem
        rw [hrunning]
        trivial
      · cases hmem

theorem Follows.after (h : t.Follows m jobs) (hfirst : m.store.jobNumbers = [])
    (he : t.Allows e) : (t.after e).Follows m (jobs ++ (t.storeEvent? e).toList) where
  reached := by rw [Moment.run_append, h.reached, after_toMoment]
  accounted := after_accounted h.accounted he
  accepts := h.accepts_after he
  alone := h.alone_after he
  looks := h.looks_after hfirst he
  tracked := h.tracked_after he

theorem Follows.run (h : t.Follows m jobs) (hfirst : m.store.jobNumbers = [])
    (horderly : t.Orderly events) :
    (t.run events).Follows m (jobs ++ t.storeEvents events) := by
  induction events generalizing t jobs with
  | nil => exact (List.append_nil jobs).symm ▸ h
  | cons e rest ih =>
    rw [storeEvents, ← List.append_assoc]
    exact ih (h.after hfirst horderly.1) horderly.2

/-! ## What is told about a task -/

theorem initial_follows (settings : StoreSettings) (limits : TaskLimits) (start : Instant) :
    (initial settings limits start).Follows (initial settings limits start).toMoment [] where
  reached := rfl
  accounted := Traffic.initial_accounted
  accepts := List.forall_mem_nil _
  alone := List.forall_mem_nil _
  looks := List.forall_mem_nil _
  tracked := List.forall_mem_nil _

/-- In every run from the empty service, in which calls, the poller, the store and its faults go on
in any order, a task that is told follows the job that was accepted for it. If it is complete, the
job has ended so, with the count of the task, and has changed as many records, each once. If it has
failed, the job has failed for the same reason; or the job has ended, its outcome was kept for its
time and forgotten, and the task says so. Only so has a task failed whose job was done. -/
theorem outcome_of_job (settings : StoreSettings) (limits : TaskLimits) (start : Instant)
    (horderly : (initial settings limits start).Orderly events) {task : Task}
    (htold : ((initial settings limits start).run events).answer? id e = some (.ok task)) :
    let first := initial settings limits start
    let jobs := first.storeEvents events
    (∃ x ∈ (first.run events).returned, x.id = id ∧ x.job = task.job) ∧
      first.toMoment.Accepts jobs task.job ∧
      (∀ n at_, task.state = .complete n at_ →
        (∃ ended, first.toMoment.Ends jobs task.job (.done n) ended) ∧
          n = ((first.toMoment.log jobs).filter (·.isOf task.job)).length) ∧
      (((first.toMoment.log jobs).filter (·.isOf task.job)).map (·.digest)).Nodup ∧
      (∀ reason at_, task.state = .failed reason at_ →
        (∃ ended, first.toMoment.Ends jobs task.job (.failed reason) ended) ∨
          (reason = forgottenReason ∧ first.toMoment.Forgets jobs task.job)) ∧
      ∀ n ended, first.toMoment.Ends jobs task.job (.done n) ended →
        ∀ reason at_, task.state = .failed reason at_ →
          reason = forgottenReason ∧ first.toMoment.Forgets jobs task.job := by
  intro first jobs
  have hfirst : first.store.jobNumbers = [] := rfl
  have hfollows : (first.run events).Follows first.toMoment jobs :=
    (initial_follows settings limits start).run hfirst horderly
  rcases answer?_cases htold with ⟨⟨text, hmissing⟩, -⟩ | ⟨shown, hshown, hsame, -⟩
  · cases hmissing
  · obtain rfl := Except.ok.inj hsame
    have htracked : task ∈ (first.run events).registry.tasks := (List.mem_filter.mp hshown).1
    have hagrees := hfollows.tracked task htracked
    obtain ⟨x, hx, hid, hjob⟩ := hfollows.returned_of_tracked htracked
    have hname : task.id = id := TaskRegistry.id_of_mem_named hshown
    have haccepts : first.toMoment.Accepts jobs task.job := hjob ▸ hfollows.accepts_returned hx
    refine ⟨⟨x, hx, hid.trans hname, hjob⟩, haccepts, ?_, ?_, ?_, ?_⟩
    · intro n at_ hstate
      rw [hstate] at hagrees
      obtain ⟨ended, hends⟩ := hagrees
      exact ⟨⟨ended, hends⟩, hends.count hfirst⟩
    · exact haccepts.digests_nodup hfirst (Store.empty_wellFormed settings)
    · intro reason at_ hstate
      rw [hstate] at hagrees
      exact hagrees
    · intro n ended hdone reason at_ hstate
      rw [hstate] at hagrees
      rcases hagrees with ⟨ended', hfailed⟩ | hforgotten
      · obtain ⟨houtcome, -⟩ :=
          hdone.unique hfailed (Store.numbered_of_jobNumbers hfirst)
        cases houtcome
      · exact hforgotten

/-! ### A job that changes one record -/

/-- A record is written, and a job that touches all records is submitted and done. -/
def touchedOnce : List TaskEvent :=
  [.happens (Moment.addOnce 1 {}),
    .begins (.submit Traffic.touchAll), .goes 0 ⟨1⟩, .goes 0 ⟨1⟩, .goes 0 ⟨1⟩, .goes 0 ⟨1⟩,
    .goes 0 ⟨1⟩,
    .happens .dispatch, .happens (.stepJob 1), .happens (.stepJob 1), .happens (.stepJob 1)]

/-- The poller looks at the task, and then a call for its status begins. -/
def lookedAt : List TaskEvent := [.notes ⟨1⟩, .polls 0, .polls 0, .begins (.status oneText)]

theorem outcome_of_job_touchedOnce :
    let first := initial {} {} 0
    let jobs := first.storeEvents (touchedOnce ++ lookedAt)
    (∃ ended, first.toMoment.Ends jobs 1 (.done 1) ended) ∧
      1 = ((first.toMoment.log jobs).filter (·.isOf 1)).length := by
  have horderly : (initial {} {} 0).Orderly (touchedOnce ++ lookedAt) := by decide
  have htold : ((initial {} {} 0).run (touchedOnce ++ lookedAt)).answer? ⟨1⟩ (.goes 1 ⟨3⟩) =
      some (.ok { touching with state := .complete 1 0 }) := rfl
  obtain ⟨-, -, hcomplete, -⟩ := outcome_of_job {} {} 0 horderly htold
  exact hcomplete 1 0 rfl

/-- Another job is submitted. -/
def submittedAgain : List TaskEvent :=
  [.begins (.submit Traffic.touchAll), .goes 1 ⟨2⟩, .goes 1 ⟨2⟩, .goes 1 ⟨2⟩, .goes 1 ⟨2⟩,
    .goes 1 ⟨2⟩]

/-- Where outcomes are not kept and another job is submitted before the poller looks, the job is
done and the task has failed. -/
theorem done_job_told_failed :
    ¬∀ (settings : StoreSettings) (limits : TaskLimits) (start : Instant)
      (events : List TaskEvent), (initial settings limits start).Orderly events →
      ∀ id e task, ((initial settings limits start).run events).answer? id e = some (.ok task) →
      ∀ n ended, (initial settings limits start).toMoment.Ends
          ((initial settings limits start).storeEvents events) task.job (.done n) ended →
        ∀ reason at_, task.state ≠ .failed reason at_ := by
  intro h
  have hends : (initial { jobRetention := 0 } {} 0).toMoment.Ends
      ((initial { jobRetention := 0 } {} 0).storeEvents touchedOnce) 1 (.done 1) 0 := by
    refine ⟨[Moment.addOnce 1 {}, .startJob Traffic.touchAll, .dispatch, .stepJob 1, .stepJob 1],
      [], rfl, ?_, ?_, rfl, rfl⟩
    · decide
    · decide
  have horderly : (initial { jobRetention := 0 } {} 0).Orderly
      (touchedOnce ++ (submittedAgain ++ lookedAt)) := by decide
  have htold : ((initial { jobRetention := 0 } {} 0).run
      (touchedOnce ++ (submittedAgain ++ lookedAt))).answer? ⟨1⟩ (.goes 2 ⟨3⟩) =
        some (.ok { touching with state := .failed forgottenReason 0 }) := rfl
  refine h _ _ _ _ horderly _ _ _ htold 1 0 ?_ forgottenReason 0 rfl
  rw [storeEvents_append]
  exact hends.append _

end TaskService
end RecordService
