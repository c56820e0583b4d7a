import RecordService.Proofs.Job.Pass
import RecordService.Proofs.Store.Write

/-!
# The numbers of jobs

Every accepted job gets a number of its own. The store knows a job under its number until its
outcome is forgotten, and its pool holds the job for as long as it waits or runs.

* `JobPool.numbers`, `Store.jobNumbers`: the numbers in use.
* `JobPool.hire`: workers take jobs.
* `Store.Numbered`: no two jobs of the pool have the same number, and every number in use has been
  given.
* `Store.startJob_inv`, `Store.stepJob_turns`: all that a submission and a worker can do.
* `Store.mem_jobNumbers_startJob`, `Moment.mem_jobNumbers_after`: only an accepted job brings a
  number.
* `Moment.after_numbered`, `Moment.run_numbered`: a store stays numbered.
-/

namespace RecordService

namespace JobPool

variable {p : JobPool} {n : Nat}

/-- The numbers of the jobs that wait or run. -/
def numbers (p : JobPool) : List Nat := p.queue.map (·.id) ++ p.active.map (·.job.id)

/-- How many workers have no job. -/
def free (p : JobPool) : Nat := p.workers - p.active.length

/-- Workers take the first waiting jobs, at most as many as are asked for. -/
def hire (n : Nat) (p : JobPool) : JobPool :=
  { p with
    queue := p.queue.drop n
    active := p.active ++ (p.queue.take n).map fun job => { job } }

theorem dispatch_eq_hire (p : JobPool) : p.dispatch = p.hire p.free := rfl

theorem numbers_hire (n : Nat) (p : JobPool) : (p.hire n).numbers.Perm p.numbers := by
  have hqueue : p.queue.map (·.id) =
      (p.queue.take n).map (·.id) ++ (p.queue.drop n).map (·.id) := by
    rw [← List.map_append, List.take_append_drop]
  simp only [numbers, hire, hqueue, List.map_append, List.map_map, Function.comp_def]
  rw [← List.append_assoc]
  exact (List.perm_append_comm).trans (by rw [List.append_assoc])

theorem numbers_dispatch (p : JobPool) : p.dispatch.numbers.Perm p.numbers :=
  p.numbers_hire p.free

theorem numbers_update (a : ActiveJob) (p : JobPool) : (p.update a).numbers = p.numbers := by
  have hsame : ∀ b : ActiveJob,
      (if b.job.id = a.job.id then a else b).job.id = b.job.id := by
    intro b
    split
    · rename_i hid
      exact hid.symm
    · rfl
  simp only [numbers, update, List.map_map, Function.comp_def, hsame]

theorem numbers_release (n : Nat) (p : JobPool) : (p.release n).numbers.Sublist p.numbers :=
  (List.Sublist.refl _).append (List.filter_sublist.map _)

end JobPool

namespace Store

variable {s : Store} {now : Instant} {n : Nat}

/-- The numbers under which a job is known, waits or runs. -/
def jobNumbers (s : Store) : List Nat := s.jobs.map (·.1) ++ s.pool.numbers

/-- No two jobs of the pool have the same number, and all numbers in use have been given. -/
structure Numbered (s : Store) : Prop where
  nodup : s.pool.numbers.Nodup
  lt : ∀ n ∈ s.jobNumbers, n < s.nextJob

theorem empty_numbered (settings : StoreSettings) : (empty settings).Numbered :=
  ⟨List.nodup_nil, nofun⟩

/-- A write changes nothing but records. -/
theorem write_kept {α : Type} (s : Store) (now : Instant) (address : Address)
    (decide : Option StoredRecord → Except StoreError (α × Change)) :
    (s.write now address decide).2 =
      { s with spaces := (s.write now address decide).2.spaces } := by
  rcases s.write_cases now address decide with ⟨e, hw⟩ | ⟨doubt, rs, a, c, -, -, -, hw⟩
  · rw [hw]
  · rw [hw]
    rfl

theorem operate_kept (s : Store) (now : Instant) (address : Address) (ops : List Operation)
    (options : WriteOptions) :
    (s.operate now address ops options).2 =
      { s with spaces := (s.operate now address ops options).2.spaces } := by
  unfold operate
  split
  · rfl
  · exact s.write_kept now address _

/-! ## Acceptance -/

/-- A submission is refused for its request, and nothing happens; or for want of room, after
outcomes may have been forgotten and a number has been used up; or the job is accepted under the
next number and waits. -/
theorem startJob_inv (now : Instant) (request : JobRequest) (s : Store) :
    (∃ e, s.startJob now request = (.error e, s)) ∨
      (∃ reason, s.startJob now request = (.error (.unavailable reason), s.prepareJob now)) ∨
      s.startJob now request =
        (.ok s.nextJob,
          { s.prepareJob now with
            jobs := Ordered.insert s.nextJob ⟨.inProgress, none⟩ (s.sweepJobs now).jobs
            pool :=
              { (s.prepareJob now).pool with
                queue := s.pool.queue ++ [⟨s.nextJob, request⟩] } }) := by
  unfold startJob
  cases s.checkJob request with
  | error e => exact .inl ⟨e, rfl⟩
  | ok _ =>
    by_cases hroom :
        (s.prepareJob now).pool.queue.length < (s.prepareJob now).settings.maxQueuedJobs
    · simp only [hroom, if_true]
      exact .inr (.inr rfl)
    · simp only [hroom, if_false]
      exact .inr (.inl ⟨_, rfl⟩)

/-- A job is refused, and only forgotten jobs and the next number are not as before; or it is
accepted under the next number and waits. -/
theorem startJob_cases (now : Instant) (request : JobRequest) (s : Store) :
    (∃ e s', s.startJob now request = (.error e, s') ∧ s'.jobs.Sublist s.jobs ∧
        s'.pool.queue = s.pool.queue ∧ s'.pool.active = s.pool.active ∧
        s.nextJob ≤ s'.nextJob) ∨
      ∃ s', s.startJob now request = (.ok s.nextJob, s') ∧
        s'.jobs = Ordered.insert s.nextJob ⟨.inProgress, none⟩ (s.sweepJobs now).jobs ∧
        s'.pool.queue = s.pool.queue ++ [⟨s.nextJob, request⟩] ∧
        s'.pool.active = s.pool.active ∧ s'.nextJob = s.nextJob + 1 := by
  rcases s.startJob_inv now request with ⟨e, h⟩ | ⟨e, h⟩ | h
  · exact .inl ⟨e, s, h, List.Sublist.refl _, rfl, rfl, Nat.le_refl _⟩
  · exact .inl ⟨_, _, h, List.filter_sublist, rfl, rfl, Nat.le_succ _⟩
  · exact .inr ⟨_, h, rfl, rfl, rfl, rfl⟩

/-- A job brings its own number, and a job that is refused brings none. -/
theorem mem_jobNumbers_startJob {request : JobRequest} {answer : Except StoreError Nat} {s' : Store}
    (hstart : s.startJob now request = (answer, s')) (h : n ∈ s'.jobNumbers) :
    n ∈ s.jobNumbers ∨ answer = .ok n := by
  rcases s.startJob_cases now request with
    ⟨e, t, ht, hjobs, hqueue, hactive, -⟩ | ⟨t, ht, hjobs, hqueue, hactive, -⟩
  · obtain ⟨rfl, rfl⟩ := Prod.mk.inj (ht.symm.trans hstart)
    rw [jobNumbers, JobPool.numbers, hqueue, hactive] at h
    exact .inl (List.mem_append.mpr ((List.mem_append.mp h).imp_left
      fun hn => (hjobs.map _).subset hn))
  · obtain ⟨rfl, rfl⟩ := Prod.mk.inj (ht.symm.trans hstart)
    rw [jobNumbers, JobPool.numbers] at h ⊢
    simp only [hjobs, hqueue, hactive, List.map_append, List.map_cons, List.map_nil,
      List.mem_append, List.mem_map, List.mem_singleton] at h ⊢
    rcases h with ⟨e, he, rfl⟩ | (hqueue | rfl) | hactive
    · rcases Ordered.mem_insert he with rfl | he
      · exact .inr rfl
      · exact .inl (.inl ⟨e, (List.mem_filter.mp he).1, rfl⟩)
    · exact .inl (.inr (.inl hqueue))
    · exact .inr rfl
    · exact .inl (.inr (.inr hactive))

theorem startJob_numbered (h : s.Numbered) (now : Instant) (request : JobRequest) :
    (s.startJob now request).2.Numbered := by
  have hfresh : s.nextJob ∉ s.pool.numbers := fun hmem =>
    Nat.lt_irrefl _ (h.lt _ (List.mem_append_right _ hmem))
  rcases s.startJob_cases now request with
    ⟨e, s', hs', -, hqueue, hactive, hnext⟩ | ⟨s', hs', -, hqueue, hactive, hnext⟩
  · rw [hs']
    refine ⟨?_, fun n hn => ?_⟩
    · rw [JobPool.numbers, hqueue, hactive]
      exact h.nodup
    · rcases mem_jobNumbers_startJob hs' hn with hn | hn
      · exact Nat.lt_of_lt_of_le (h.lt n hn) hnext
      · cases hn
  · rw [hs']
    refine ⟨?_, fun n hn => ?_⟩
    · have hperm : s'.pool.numbers.Perm (s.nextJob :: s.pool.numbers) := by
        rw [JobPool.numbers, hqueue, hactive, List.map_append, List.append_assoc]
        exact List.perm_middle
      exact hperm.nodup_iff.mpr (List.nodup_cons.mpr ⟨hfresh, h.nodup⟩)
    · rw [hnext]
      rcases mem_jobNumbers_startJob hs' hn with hn | hn
      · exact Nat.lt_succ_of_lt (h.lt n hn)
      · cases hn
        exact Nat.lt_succ_self _

/-! ## Work -/

/-- A step of the worker of a job does nothing, ends the job with an outcome, or notes how far it
has come. It may have changed records. -/
theorem stepJob_turns (now : Instant) (id : Nat) (s : Store) :
    s.stepJob now id = s ∨
      ∃ a spaces, s.pool.find? id = some a ∧ a.job.id = id ∧
        ((∃ outcome, outcome ≠ .inProgress ∧
            s.stepJob now id = ({ s with spaces } : Store).endJob now id outcome) ∨
          ∃ left modified,
            s.stepJob now id = ({ s with spaces } : Store).noteJob { a with left, modified }) := by
  obtain ⟨-, h⟩ | ⟨a, hfound, hid, ⟨reason, -, h⟩ | ⟨rs, -, ⟨-, h⟩ | ⟨-, h⟩ | ⟨d, rest, -, h⟩⟩⟩ :=
    s.stepJob_inv now id
  · exact .inl h
  · exact .inr ⟨a, s.spaces, hfound, hid, .inl ⟨.failed reason, JobState.noConfusion, h⟩⟩
  · exact .inr ⟨a, s.spaces, hfound, hid, .inr ⟨_, a.modified, h⟩⟩
  · exact .inr ⟨a, s.spaces, hfound, hid, .inl ⟨.done a.modified, JobState.noConfusion, h⟩⟩
  · rw [h, stepBatch]
    rcases a.job.request.visitAll now ((d :: rest).take s.batchSize) rs 0 with ⟨rs', e | changed⟩
    · exact .inr ⟨a, _, hfound, hid,
        .inl ⟨.failed e.message, JobState.noConfusion, by rw [hid]; rfl⟩⟩
    · exact .inr ⟨a, _, hfound, hid, .inr ⟨_, _, rfl⟩⟩

/-- A step of the worker of a job does nothing, ends the job, or notes how far it has come. It may
have changed records. -/
theorem stepJob_kinds (now : Instant) (id : Nat) (s : Store) :
    s.stepJob now id = s ∨
      ∃ a spaces, s.pool.find? id = some a ∧ a.job.id = id ∧
        ((∃ outcome, s.stepJob now id = ({ s with spaces } : Store).endJob now id outcome) ∨
          ∃ left modified,
            s.stepJob now id = ({ s with spaces } : Store).noteJob { a with left, modified }) := by
  obtain h | ⟨a, spaces, hfound, hid, ⟨outcome, -, h⟩ | h⟩ := s.stepJob_turns now id
  · exact .inl h
  · exact .inr ⟨a, spaces, hfound, hid, .inl ⟨outcome, h⟩⟩
  · exact .inr ⟨a, spaces, hfound, hid, .inr h⟩

theorem numbers_stepJob (now : Instant) (id : Nat) (s : Store) :
    (s.stepJob now id).pool.numbers.Sublist s.pool.numbers := by
  rcases s.stepJob_kinds now id with h | ⟨a, spaces, -, -, ⟨outcome, h⟩ | ⟨left, modified, h⟩⟩
  · exact h.symm ▸ List.Sublist.refl _
  · rw [h]
    exact JobPool.numbers_release id s.pool
  · rw [h]
    exact (JobPool.numbers_update _ s.pool).symm ▸ List.Sublist.refl _

theorem mem_jobNumbers_stepJob {id : Nat} (h : n ∈ (s.stepJob now id).jobNumbers) :
    n ∈ s.jobNumbers := by
  rcases List.mem_append.mp h with hn | hn
  · rcases s.stepJob_kinds now id with
      hs | ⟨a, spaces, hfound, hid, ⟨outcome, hs⟩ | ⟨left, modified, hs⟩⟩
    · rw [hs] at hn
      exact List.mem_append_left _ hn
    · rw [hs] at hn
      obtain ⟨e, he, rfl⟩ := List.mem_map.mp hn
      rcases Ordered.mem_insert he with rfl | he
      · refine List.mem_append_right _ (List.mem_append_right _ ?_)
        exact List.mem_map.mpr ⟨a, List.mem_of_find?_eq_some hfound, hid⟩
      · exact List.mem_append_left _ (List.mem_map_of_mem he)
    · rw [hs] at hn
      exact List.mem_append_left _ hn
  · exact List.mem_append_right _ ((numbers_stepJob now id s).subset hn)

theorem nextJob_stepJob (now : Instant) (id : Nat) (s : Store) :
    (s.stepJob now id).nextJob = s.nextJob := by
  rcases s.stepJob_kinds now id with h | ⟨a, spaces, -, -, ⟨outcome, h⟩ | ⟨left, modified, h⟩⟩
  · rw [h]
  · rw [h]
    rfl
  · rw [h]
    rfl

end Store

/-! ## All that happens -/

namespace Moment

variable {m : Moment} {n : Nat}

/-- An event leaves the jobs as they are, or it is the acceptance of a job or a step of the
workers. -/
theorem after_cases (m : Moment) (e : StoreEvent) :
    ((m.after e).store.jobs = m.store.jobs ∧ (m.after e).store.nextJob = m.store.nextJob ∧
        (m.after e).store.pool = m.store.pool) ∨
      (∃ request, e = .startJob request) ∨ e = .dispatch ∨ ∃ id, e = .stepJob id := by
  cases e with
  | put address bins options =>
    refine .inl ?_
    rw [after, Store.put, Store.write_kept]
    exact ⟨rfl, rfl, rfl⟩
  | delete address options =>
    refine .inl ?_
    rw [after, Store.delete, Store.write_kept]
    exact ⟨rfl, rfl, rfl⟩
  | operate address ops options =>
    refine .inl ?_
    rw [after, Store.operate_kept]
    exact ⟨rfl, rfl, rfl⟩
  | startJob request => exact .inr (.inl ⟨request, rfl⟩)
  | dispatch => exact .inr (.inr (.inl rfl))
  | stepJob id => exact .inr (.inr (.inr ⟨id, rfl⟩))
  | pause | node | fault | clock => exact .inl ⟨rfl, rfl, rfl⟩

/-- Nothing but the acceptance of a job brings a number. -/
theorem mem_jobNumbers_after {e : StoreEvent} (he : ∀ request, e ≠ .startJob request)
    (h : n ∈ (m.after e).store.jobNumbers) : n ∈ m.store.jobNumbers := by
  rcases m.after_cases e with ⟨hjobs, -, hpool⟩ | ⟨request, rfl⟩ | rfl | ⟨id, rfl⟩
  · rwa [Store.jobNumbers, hjobs, hpool] at h
  · exact absurd rfl (he request)
  · exact List.mem_append.mpr ((List.mem_append.mp h).imp_right
      (JobPool.numbers_dispatch m.store.pool).mem_iff.mp)
  · exact Store.mem_jobNumbers_stepJob h

theorem after_numbered (h : m.store.Numbered) (e : StoreEvent) : (m.after e).store.Numbered := by
  rcases m.after_cases e with ⟨hjobs, hnext, hpool⟩ | ⟨request, rfl⟩ | rfl | ⟨id, rfl⟩
  · refine ⟨hpool ▸ h.nodup, ?_⟩
    rw [Store.jobNumbers, hjobs, hnext, hpool]
    exact h.lt
  · exact Store.startJob_numbered h m.now request
  · have hperm := JobPool.numbers_dispatch m.store.pool
    have hne : ∀ request, StoreEvent.dispatch ≠ .startJob request := fun _ => StoreEvent.noConfusion
    exact ⟨hperm.nodup_iff.mpr h.nodup, fun n hn => h.lt n (mem_jobNumbers_after hne hn)⟩
  · refine ⟨(Store.numbers_stepJob m.now id m.store).nodup h.nodup, fun n hn => ?_⟩
    exact (Store.nextJob_stepJob m.now id m.store).symm ▸ h.lt n (Store.mem_jobNumbers_stepJob hn)

theorem run_numbered (h : m.store.Numbered) (events : List StoreEvent) :
    (m.run events).store.Numbered := by
  induction events generalizing m with
  | nil => exact h
  | cons e rest ih => exact ih (after_numbered h e)

theorem nextJob_after (m : Moment) (e : StoreEvent) :
    m.store.nextJob ≤ (m.after e).store.nextJob := by
  rcases m.after_cases e with ⟨-, hnext, -⟩ | ⟨request, rfl⟩ | rfl | ⟨id, rfl⟩
  · exact Nat.le_of_eq hnext.symm
  · rcases m.store.startJob_cases m.now request with
      ⟨e, s', hs', -, -, -, hnext⟩ | ⟨s', hs', -, -, -, hnext⟩
    · rw [after, hs']
      exact hnext
    · rw [after, hs', hnext]
      exact Nat.le_succ _
  · exact Nat.le_refl _
  · exact Nat.le_of_eq (Store.nextJob_stepJob m.now id m.store).symm

theorem nextJob_run (m : Moment) (events : List StoreEvent) :
    m.store.nextJob ≤ (m.run events).store.nextJob := by
  induction events generalizing m with
  | nil => exact Nat.le_refl _
  | cons e rest ih => exact Nat.le_trans (m.nextJob_after e) (ih (m.after e))

/-- A number whose job has left the pool does not come back to it. -/
theorem not_mem_numbers_after (hlt : n < m.store.nextJob) (h : n ∉ m.store.pool.numbers)
    (e : StoreEvent) : n ∉ (m.after e).store.pool.numbers := by
  rcases m.after_cases e with ⟨-, -, hpool⟩ | ⟨request, rfl⟩ | rfl | ⟨id, rfl⟩
  · rwa [hpool]
  · rcases m.store.startJob_cases m.now request with
      ⟨e, s', hs', -, hqueue, hactive, -⟩ | ⟨s', hs', -, hqueue, hactive, -⟩
    · rw [after, hs', JobPool.numbers, hqueue, hactive]
      exact h
    · rw [after, hs', JobPool.numbers, hqueue, hactive]
      simp only [JobPool.numbers, List.map_append, List.map_cons, List.map_nil, List.mem_append,
        List.mem_singleton, not_or] at h ⊢
      exact ⟨⟨h.1, Nat.ne_of_lt hlt⟩, h.2⟩
  · exact fun hn => h ((JobPool.numbers_dispatch m.store.pool).mem_iff.mp hn)
  · exact fun hn => h ((Store.numbers_stepJob m.now id m.store).subset hn)

/-- Of a job that has been accepted, nothing new is known but by a step of its worker. -/
theorem mem_jobs_after {j : JobEntry} {e : StoreEvent} (hlt : n < m.store.nextJob)
    (he : e = .stepJob n → n ∉ m.store.pool.numbers)
    (h : (n, j) ∈ (m.after e).store.jobs) : (n, j) ∈ m.store.jobs := by
  rcases m.after_cases e with ⟨hjobs, -, -⟩ | ⟨request, rfl⟩ | rfl | ⟨id, rfl⟩
  · rwa [hjobs] at h
  · rcases m.store.startJob_cases m.now request with
      ⟨e, s', hs', hjobs, -, -, -⟩ | ⟨s', hs', hjobs, -, -, -⟩
    · rw [after, hs'] at h
      exact hjobs.subset h
    · rw [after, hs'] at h
      rw [hjobs] at h
      rcases Ordered.mem_insert h with heq | h
      · exact absurd (Prod.mk.inj heq).1 (Nat.ne_of_lt hlt)
      · exact (List.mem_filter.mp h).1
  · exact h
  · rcases m.store.stepJob_kinds m.now id with
      hs | ⟨a, spaces, hfound, hid, ⟨outcome, hs⟩ | ⟨left, modified, hs⟩⟩
    · rwa [after, hs] at h
    · rw [after, hs] at h
      rcases Ordered.mem_insert h with heq | h
      · obtain rfl := (Prod.mk.inj heq).1
        refine absurd (List.mem_append_right _ ?_) (he rfl)
        exact List.mem_map.mpr ⟨a, List.mem_of_find?_eq_some hfound, hid⟩
      · exact h
    · rwa [after, hs] at h

end Moment
end RecordService
