import RecordService.Proofs.Job.Endings

/-!
# Submissions among others

A submission is not made in one go. It checks its request, forgets outcomes whose time is over,
takes a number, enters its job as one in progress, sees that there are workers, and only then looks
for room in the queue; if there is none it takes its entry back. Between any two of these steps
others submit jobs and the workers go on.

* `Submission.next`: a step of a submission. `Submission.steps_eq_startJob`: where nothing comes in
  between, the steps are `Store.startJob`.
* `JobPool.hireOne`: a worker takes a job. `JobPool.dispatch_eq_repeat`: one after the other all
  free workers do.
* `JobTraffic`: a store with the submissions to it. `JobTraffic.run`: any sequence of their steps,
  of steps of the workers and of all else that happens to a store.
* `JobTraffic.history`: what comes of jobs in the course of events.
* `JobDesk.Turn`: all that an event can do to the jobs. `JobTraffic.turn`: there is nothing else.
-/

namespace RecordService

/-! ## Submissions -/

/-- A submission between two of its steps. -/
inductive Submission
  | begun (request : JobRequest)
  /-- There is nothing wrong with the request. -/
  | checked (request : JobRequest)
  /-- The outcomes whose time is over have been forgotten. -/
  | swept (request : JobRequest)
  | numbered (id : Nat) (request : JobRequest)
  /-- The job is known to be in progress. -/
  | entered (id : Nat) (request : JobRequest)
  /-- The workers have been started. -/
  | staffed (id : Nat) (request : JobRequest)
  /-- There is no room in the queue. -/
  | turnedAway (id : Nat)
  | answered (answer : Except StoreError Nat)

namespace Submission

/-- The next step of a submission. -/
def next (now : Instant) (s : Store) : Submission → Submission × Store
  | begun request =>
    match s.checkJob request with
    | .error e => (answered (.error e), s)
    | .ok () => (checked request, s)
  | checked request => (swept request, s.sweepJobs now)
  | swept request => (numbered s.nextJob request, { s with nextJob := s.nextJob + 1 })
  | numbered id request =>
    (entered id request, { s with jobs := Ordered.insert id ⟨.inProgress, none⟩ s.jobs })
  | entered id request =>
    (staffed id request, { s with pool := { s.pool with workers := s.workerCount } })
  | staffed id request =>
    if s.pool.queue.length < s.settings.maxQueuedJobs then
      (answered (.ok id),
        { s with pool := { s.pool with queue := s.pool.queue ++ [⟨id, request⟩] } })
    else (turnedAway id, s)
  | turnedAway id =>
    (answered (.error (.unavailable "background job queue is full")),
      { s with jobs := Ordered.erase id s.jobs })
  | answered answer => (answered answer, s)

/-- Several steps of a submission with nothing in between. -/
def steps (now : Instant) : Nat → Submission × Store → Submission × Store
  | 0, p => p
  | n + 1, p => steps now n (p.1.next now p.2)

theorem steps_answered (now : Instant) (answer : Except StoreError Nat) (s : Store) (n : Nat) :
    steps now n (answered answer, s) = (answered answer, s) := by
  induction n with
  | zero => rfl
  | succ n ih => exact ih

/-- Seven steps take a submission to its end, and come to a submission made in one go. -/
theorem steps_eq_startJob {s : Store} (hnumbered : s.Numbered) (hsorted : Ordered.Sorted s.jobs)
    (now : Instant) (request : JobRequest) :
    steps now 7 (begun request, s) =
      (answered (s.startJob now request).1, (s.startJob now request).2) := by
  cases hcheck : s.checkJob request with
  | error e =>
    have hstart : s.startJob now request = (.error e, s) := by simp only [Store.startJob, hcheck]
    have hnext : (begun request).next now s = (answered (.error e), s) := by
      simp only [next, hcheck]
    rw [hstart, steps, hnext, steps_answered]
  | ok _ =>
    by_cases hroom : s.pool.queue.length < s.settings.maxQueuedJobs
    · have hroom' :
          (s.prepareJob now).pool.queue.length < (s.prepareJob now).settings.maxQueuedJobs := hroom
      simp only [Store.startJob, hcheck, if_pos hroom', steps, next, Store.sweepJobs, if_pos hroom]
      rfl
    · have hroom' :
          ¬(s.prepareJob now).pool.queue.length < (s.prepareJob now).settings.maxQueuedJobs := hroom
      have hfresh : Ordered.find? s.nextJob s.jobs = none := by
        refine Ordered.find?_eq_none_iff.mpr fun e he => (Nat.ne_of_lt ?_).symm
        exact hnumbered.lt e.1 (List.mem_append_left _ (List.mem_map_of_mem he))
      -- The entry that is taken back was the only one under its number.
      have herase : Ordered.erase s.nextJob
          (Ordered.insert s.nextJob ⟨.inProgress, none⟩ (s.sweepJobs now).jobs) =
            (s.sweepJobs now).jobs := by
        have hswept : Ordered.Sorted (s.sweepJobs now).jobs := hsorted.filter _
        refine ((hswept.insert _ _).erase _).ext hswept fun k => ?_
        rw [Ordered.find?_erase (hswept.insert _ _), Ordered.find?_insert]
        split
        · rename_i hk
          rw [hk, Store.sweepJobs, Ordered.find?_filter hsorted, hfresh]
          rfl
        · rfl
      simp only [Store.startJob, hcheck, if_neg hroom', steps, next, Store.sweepJobs, if_neg hroom]
      rw [Store.sweepJobs] at herase
      rw [herase]
      rfl

theorem settings_next (now : Instant) (s : Store) (call : Submission) :
    (call.next now s).2.settings = s.settings := by
  cases call with
  | begun request =>
    rw [next]
    split <;> rfl
  | staffed id request =>
    rw [next]
    split <;> rfl
  | checked | swept | numbered | entered | turnedAway | answered => rfl

/-! The numbers that a submission has in hand. -/

/-- The number of a submission that has not been answered. -/
def pending : Submission → List Nat
  | numbered id _ | entered id _ | staffed id _ | turnedAway id => [id]
  | _ => []

/-- The number of a submission that has not been answered, if its job has been entered. -/
def listed : Submission → List Nat
  | entered id _ | staffed id _ | turnedAway id => [id]
  | _ => []

/-- The number of a submission whose job has been accepted. -/
def granted : Submission → List Nat
  | answered (.ok id) => [id]
  | _ => []

end Submission

/-! ## Workers -/

namespace JobPool

/-- A worker without a job takes the first one that waits. -/
def hireOne (p : JobPool) : JobPool := p.hire (min 1 p.free)

theorem hire_zero (p : JobPool) : p.hire 0 = p := by
  rw [hire, List.drop_zero, List.take_zero, List.map_nil, List.append_nil]

theorem hire_hire (n k : Nat) (p : JobPool) : (p.hire n).hire k = p.hire (n + k) := by
  simp only [hire, List.drop_drop, List.take_add, List.map_append, List.append_assoc]

/-- To give jobs to all free workers comes to each of them taking one. -/
theorem dispatch_eq_repeat (p : JobPool) : p.dispatch = Nat.repeat hireOne p.free p := by
  have hsome : ∀ n ≤ p.free, Nat.repeat hireOne n p = p.hire n := by
    intro n hn
    induction n with
    | zero => exact p.hire_zero.symm
    | succ n ih =>
      have hfree : 1 ≤ (p.hire n).free := by
        simp only [free, hire, List.length_append, List.length_map, List.length_take] at hn ⊢
        omega
      rw [Nat.repeat, ih (Nat.le_of_succ_le hn), hireOne, Nat.min_eq_left hfree, hire_hire]
  rw [hsome _ (Nat.le_refl _), dispatch_eq_hire]

end JobPool

/-! ## Events -/

/-- A store at a point in time, and the submissions to it. -/
structure JobTraffic extends Moment where
  calls : List Submission := []

/-- Something that happens to a store while jobs are submitted to it. -/
inductive JobEvent
  /-- A submission takes its next step. -/
  | goes (i : Nat)
  /-- A worker without a job takes the first one that waits. -/
  | hires
  /-- A submission begins, or something else happens that is not one of its steps. -/
  | happens (e : StoreEvent)

/-- What has come of jobs, each in the order in which it has happened. -/
structure JobHistory where
  /-- The numbers that have been given to submissions. -/
  numbered : List Nat := []
  /-- The jobs that have been accepted. -/
  accepted : List Nat := []
  /-- The jobs for which there was no room. -/
  refused : List Nat := []
  /-- The jobs that workers have taken. -/
  started : List Nat := []
  /-- The jobs that workers have come to an end with, each with its outcome and the time. -/
  ended : List (Nat × JobEntry) := []
  /-- The jobs whose outcomes submissions have forgotten, and when. -/
  forgotten : List (Nat × Instant) := []
  deriving DecidableEq

namespace JobHistory

/-- One history and what has come later. -/
def append (h h' : JobHistory) : JobHistory where
  numbered := h.numbered ++ h'.numbered
  accepted := h.accepted ++ h'.accepted
  refused := h.refused ++ h'.refused
  started := h.started ++ h'.started
  ended := h.ended ++ h'.ended
  forgotten := h.forgotten ++ h'.forgotten

instance : Append JobHistory := ⟨append⟩

@[simp] theorem numbered_append (h h' : JobHistory) :
    (h ++ h').numbered = h.numbered ++ h'.numbered := rfl

@[simp] theorem accepted_append (h h' : JobHistory) :
    (h ++ h').accepted = h.accepted ++ h'.accepted := rfl

@[simp] theorem refused_append (h h' : JobHistory) :
    (h ++ h').refused = h.refused ++ h'.refused := rfl

@[simp] theorem started_append (h h' : JobHistory) :
    (h ++ h').started = h.started ++ h'.started := rfl

@[simp] theorem ended_append (h h' : JobHistory) : (h ++ h').ended = h.ended ++ h'.ended := rfl

@[simp] theorem forgotten_append (h h' : JobHistory) :
    (h ++ h').forgotten = h.forgotten ++ h'.forgotten := rfl

theorem append_nil (h : JobHistory) : h ++ ({} : JobHistory) = h := by
  cases h
  show append _ _ = _
  simp only [append, List.append_nil]

theorem append_assoc (h₁ h₂ h₃ : JobHistory) : h₁ ++ h₂ ++ h₃ = h₁ ++ (h₂ ++ h₃) := by
  show append (append _ _) _ = append _ (append _ _)
  simp only [append, List.append_assoc]

end JobHistory

/-- What the next step of a submission does. -/
def Submission.notes (now : Instant) (s : Store) : Submission → JobHistory
  | checked _ =>
    { forgotten := (s.jobs.filter (!·.2.isKept now s.settings.jobRetention)).map (·.1, now) }
  | swept _ => { numbered := [s.nextJob] }
  | staffed id _ =>
    if s.pool.queue.length < s.settings.maxQueuedJobs then { accepted := [id] } else {}
  | turnedAway id => { refused := [id] }
  | _ => {}

namespace JobTraffic

/-- A store without records, to which no job has been submitted. -/
def initial (settings : StoreSettings) (now : Instant) : JobTraffic :=
  { store := .empty settings, now }

/-- What is there after an event. -/
def after (t : JobTraffic) : JobEvent → JobTraffic
  | .goes i =>
    match t.calls[i]? with
    | some call =>
      { t with
        store := (call.next t.now t.store).2
        calls := t.calls.set i (call.next t.now t.store).1 }
    | none => t
  | .hires => { t with store := { t.store with pool := t.store.pool.hireOne } }
  | .happens (.startJob request) => { t with calls := t.calls ++ [.begun request] }
  | .happens e => { t with toMoment := t.toMoment.after e }

/-- What is there after a sequence of events. -/
def run (t : JobTraffic) (events : List JobEvent) : JobTraffic := events.foldl after t

/-- The job of a worker, if a step of the worker takes it out of the pool and leaves an outcome. -/
def endedBy (t : JobTraffic) (id : Nat) : List (Nat × JobEntry) :=
  let s := t.store.stepJob t.now id
  match t.store.pool.find? id, s.pool.find? id, Ordered.find? id s.jobs with
  | some _, none, some entry => [(id, ⟨entry.state, some t.now⟩)]
  | _, _, _ => []

/-- What comes of jobs by an event. -/
def notes (t : JobTraffic) : JobEvent → JobHistory
  | .goes i =>
    match t.calls[i]? with
    | some call => call.notes t.now t.store
    | none => {}
  | .hires => { started := (t.store.pool.queue.take (min 1 t.store.pool.free)).map (·.id) }
  | .happens .dispatch => { started := (t.store.pool.queue.take t.store.pool.free).map (·.id) }
  | .happens (.stepJob id) => { ended := t.endedBy id }
  | .happens _ => {}

/-- What comes of jobs in the course of events. -/
def history (t : JobTraffic) : List JobEvent → JobHistory
  | [] => {}
  | e :: rest => t.notes e ++ (t.after e).history rest

end JobTraffic

/-! ## What an event can do -/

/-- All that submissions and workers have to do with. -/
structure JobDesk where
  jobs : List (Nat × JobEntry)
  nextJob : Nat
  pool : JobPool
  calls : List Submission

namespace JobDesk

/-- The numbers of the submissions that have not been answered. -/
def pending (d : JobDesk) : List Nat := d.calls.flatMap Submission.pending

/-- The numbers of the submissions that have not been answered and whose jobs have been entered. -/
def listed (d : JobDesk) : List Nat := d.calls.flatMap Submission.listed

/-- The numbers of the submissions whose jobs have been accepted. -/
def granted (d : JobDesk) : List Nat := d.calls.flatMap Submission.granted

/-- What an event can do to the jobs, and what is noted of it. -/
inductive Turn (settings : StoreSettings) (now : Instant) : JobDesk → JobHistory → JobDesk → Prop
  /-- Nothing, but that a worker notes how far it has come, or that there are workers from now
  on. -/
  | rests {d d' : JobDesk} (hjobs : d'.jobs = d.jobs) (hnext : d'.nextJob = d.nextJob)
    (hqueue : d'.pool.queue = d.pool.queue)
    (hactive : d'.pool.active.map (·.job.id) = d.pool.active.map (·.job.id))
    (hcompleted : d'.pool.completed = d.pool.completed)
    (hworkers : d'.pool.workers = d.pool.workers ∨ d'.pool.workers = max settings.jobWorkers 1)
    (hpending : d'.pending = d.pending) (hlisted : d'.listed = d.listed)
    (hgranted : d'.granted = d.granted) : Turn settings now d {} d'
  | sweeps {jobs nextJob pool front back} (request : JobRequest) :
    Turn settings now ⟨jobs, nextJob, pool, front ++ .checked request :: back⟩
      { forgotten := (jobs.filter (!·.2.isKept now settings.jobRetention)).map (·.1, now) }
      ⟨jobs.filter (·.2.isKept now settings.jobRetention), nextJob, pool,
        front ++ .swept request :: back⟩
  | numbers {jobs nextJob pool front back} (request : JobRequest) :
    Turn settings now ⟨jobs, nextJob, pool, front ++ .swept request :: back⟩
      { numbered := [nextJob] }
      ⟨jobs, nextJob + 1, pool, front ++ .numbered nextJob request :: back⟩
  | enters {jobs nextJob pool front back} (id : Nat) (request : JobRequest) :
    Turn settings now ⟨jobs, nextJob, pool, front ++ .numbered id request :: back⟩ {}
      ⟨Ordered.insert id ⟨.inProgress, none⟩ jobs, nextJob, pool,
        front ++ .entered id request :: back⟩
  | accepts {jobs nextJob pool front back} (id : Nat) (request : JobRequest)
    (hroom : pool.queue.length < settings.maxQueuedJobs) :
    Turn settings now ⟨jobs, nextJob, pool, front ++ .staffed id request :: back⟩
      { accepted := [id] }
      ⟨jobs, nextJob, { pool with queue := pool.queue ++ [⟨id, request⟩] },
        front ++ .answered (.ok id) :: back⟩
  | refuses {jobs nextJob pool front back} (id : Nat) (e : StoreError) :
    Turn settings now ⟨jobs, nextJob, pool, front ++ .turnedAway id :: back⟩
      { refused := [id] }
      ⟨Ordered.erase id jobs, nextJob, pool, front ++ .answered (.error e) :: back⟩
  | hires {d : JobDesk} (n : Nat) (hfree : n ≤ d.pool.free) :
    Turn settings now d { started := (d.pool.queue.take n).map (·.id) }
      { d with pool := d.pool.hire n }
  | ends {d : JobDesk} {a : ActiveJob} {id : Nat} (outcome : JobState)
    (hfound : d.pool.find? id = some a) (houtcome : outcome ≠ .inProgress) :
    Turn settings now d { ended := [(id, ⟨outcome, some now⟩)] }
      { d with
        jobs := Ordered.insert id ⟨outcome, some now⟩ d.jobs
        pool := d.pool.release id }

theorem Turn.refl (settings : StoreSettings) (now : Instant) (d : JobDesk) :
    Turn settings now d {} d :=
  .rests rfl rfl rfl rfl rfl (.inl rfl) rfl rfl rfl

/-- A step of a submission that keeps its number in hand, and leaves all but the workers as it
is. -/
theorem Turn.of_call {settings : StoreSettings} {now : Instant} {jobs : List (Nat × JobEntry)}
    {nextJob : Nat} {p p' : JobPool} {front back : List Submission} {call call' : Submission}
    (hpool : p' = p ∨ p' = { p with workers := max settings.jobWorkers 1 })
    (hpending : call'.pending = call.pending) (hlisted : call'.listed = call.listed)
    (hgranted : call'.granted = call.granted) :
    Turn settings now ⟨jobs, nextJob, p, front ++ call :: back⟩ {}
      ⟨jobs, nextJob, p', front ++ call' :: back⟩ := by
  refine .rests rfl rfl ?_ ?_ ?_ ?_ ?_ ?_ ?_
  · rcases hpool with rfl | rfl <;> rfl
  · rcases hpool with rfl | rfl <;> rfl
  · rcases hpool with rfl | rfl <;> rfl
  · exact hpool.imp (congrArg JobPool.workers) (congrArg JobPool.workers)
  · simp only [pending, List.flatMap_append, List.flatMap_cons, hpending]
  · simp only [listed, List.flatMap_append, List.flatMap_cons, hlisted]
  · simp only [granted, List.flatMap_append, List.flatMap_cons, hgranted]

end JobDesk

namespace JobTraffic

/-- What submissions and workers have to do with. -/
def desk (t : JobTraffic) : JobDesk where
  jobs := t.store.jobs
  nextJob := t.store.nextJob
  pool := t.store.pool
  calls := t.calls

/-- A step of a submission. -/
theorem turn_next (now : Instant) (s : Store) (front back : List Submission) (call : Submission) :
    JobDesk.Turn s.settings now ⟨s.jobs, s.nextJob, s.pool, front ++ call :: back⟩
      (call.notes now s)
      ⟨(call.next now s).2.jobs, (call.next now s).2.nextJob, (call.next now s).2.pool,
        front ++ (call.next now s).1 :: back⟩ := by
  cases call with
  | begun request =>
    cases hcheck : s.checkJob request with
    | error e =>
      simp only [Submission.next, hcheck]
      exact .of_call (.inl rfl) rfl rfl rfl
    | ok _ =>
      simp only [Submission.next, hcheck]
      exact .of_call (.inl rfl) rfl rfl rfl
  | checked request => exact .sweeps request
  | swept request => exact .numbers request
  | numbered id request => exact .enters id request
  | entered id request => exact .of_call (.inr rfl) rfl rfl rfl
  | staffed id request =>
    by_cases hroom : s.pool.queue.length < s.settings.maxQueuedJobs
    · simp only [Submission.next, Submission.notes, if_pos hroom]
      exact .accepts id request hroom
    · simp only [Submission.next, Submission.notes, if_neg hroom]
      exact .of_call (.inl rfl) rfl rfl rfl
  | turnedAway id => exact .refuses id _
  | answered answer => exact .refl _ _ _

/-- A step of a worker. -/
theorem turn_stepJob (t : JobTraffic) (id : Nat) :
    JobDesk.Turn t.store.settings t.now t.desk (t.notes (.happens (.stepJob id)))
      (t.after (.happens (.stepJob id))).desk := by
  have hnotes : t.notes (.happens (.stepJob id)) = { ended := t.endedBy id } := rfl
  have hdesk : (t.after (.happens (.stepJob id))).desk =
      ⟨(t.store.stepJob t.now id).jobs, (t.store.stepJob t.now id).nextJob,
        (t.store.stepJob t.now id).pool, t.calls⟩ := rfl
  rw [hnotes, hdesk]
  rcases t.store.stepJob_turns t.now id with
    hs | ⟨a, spaces, hfound, hid, ⟨outcome, houtcome, hs⟩ | ⟨left, modified, hs⟩⟩
  · have hended : t.endedBy id = [] := by
      simp only [endedBy, hs]
      cases t.store.pool.find? id <;> rfl
    rw [hended, hs]
    exact .refl _ _ _
  · have hended : t.endedBy id = [(id, ⟨outcome, some t.now⟩)] := by
      have hgone : (t.store.stepJob t.now id).pool.find? id = none := by
        rw [hs]
        exact JobPool.find?_release id t.store.pool
      have hknown : Ordered.find? id (t.store.stepJob t.now id).jobs =
          some ⟨outcome, some t.now⟩ := by
        rw [hs]
        exact (Ordered.find?_insert ..).trans (if_pos rfl)
      simp only [endedBy, hfound, hgone, hknown]
    rw [hended, hs]
    exact .ends (d := t.desk) outcome hfound houtcome
  · have hended : t.endedBy id = [] := by
      have hstays : (t.store.stepJob t.now id).pool.find? id = some { a with left, modified } := by
        rw [hs]
        show (t.store.pool.update { a with left, modified }).find? id = _
        subst hid
        exact JobPool.find?_update { a with left, modified } hfound
      simp only [endedBy, hfound, hstays]
    rw [hended, hs]
    refine .rests rfl rfl rfl ?_ rfl (.inl rfl) rfl rfl rfl
    exact List.append_cancel_left (JobPool.numbers_update { a with left, modified } t.store.pool)

/-- All that an event can do. -/
theorem turn (t : JobTraffic) (e : JobEvent) :
    JobDesk.Turn t.store.settings t.now t.desk (t.notes e) (t.after e).desk := by
  cases e with
  | goes i =>
    cases hcall : t.calls[i]? with
    | none =>
      simp only [notes, after, hcall]
      exact .refl _ _ _
    | some call =>
      obtain ⟨hi, hget⟩ := List.getElem?_eq_some_iff.mp hcall
      have hcalls : t.calls = t.calls.take i ++ call :: t.calls.drop (i + 1) := by
        rw [← hget, ← List.drop_eq_getElem_cons hi, List.take_append_drop]
      have hturn := turn_next t.now t.store (t.calls.take i) (t.calls.drop (i + 1)) call
      rw [← hcalls] at hturn
      simp only [notes, after, desk, hcall, List.set_eq_take_append_cons_drop, if_pos hi]
      exact hturn
  | hires => exact .hires _ (Nat.min_le_right _ _)
  | happens e =>
    cases e with
    | startJob request =>
      refine .rests rfl rfl rfl rfl rfl (.inl rfl) ?_ ?_ ?_
      · simp [JobDesk.pending, desk, after, Submission.pending]
      · simp [JobDesk.listed, desk, after, Submission.listed]
      · simp [JobDesk.granted, desk, after, Submission.granted]
    | dispatch => exact .hires _ (Nat.le_refl _)
    | stepJob id => exact t.turn_stepJob id
    | put address bins options =>
      have hdesk : (t.after (.happens (.put address bins options))).desk = t.desk := by
        simp only [desk, after, Moment.after, Store.put]
        rw [Store.write_kept]
      exact hdesk ▸ .refl _ _ _
    | delete address options =>
      have hdesk : (t.after (.happens (.delete address options))).desk = t.desk := by
        simp only [desk, after, Moment.after, Store.delete]
        rw [Store.write_kept]
      exact hdesk ▸ .refl _ _ _
    | operate address ops options =>
      have hdesk : (t.after (.happens (.operate address ops options))).desk = t.desk := by
        simp only [desk, after, Moment.after]
        rw [Store.operate_kept]
      exact hdesk ▸ .refl _ _ _
    | pause | node | fault | clock => exact .refl _ _ _

end JobTraffic
end RecordService
