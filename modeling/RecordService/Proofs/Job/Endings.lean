import RecordService.Proofs.Job.History

/-!
# How jobs end and are forgotten

A job is accepted, and ends by a step of its worker, once at most. From then on the store knows how
it has ended, until another job is submitted when the outcome's time is over. So what is known of an
accepted job is how far it has come, or that its outcome has been forgotten.

* `Moment.Accepts`, `Ends`, `Forgets`: what has come of a job in the course of events.
* `Moment.Ends.unique`: a job ends once.
* `Moment.Fate`: what is known of an accepted job. `Moment.Accepts.fate`: it is always so.
* `Moment.Fate.jobStatus_cases`: what is answered about an accepted job.
* `Moment.Ends.count`: a job that is done has made as many changes as its outcome says.
-/

namespace RecordService

namespace Store

/-! ## What is known of jobs -/

/-- Reading is never refused for want of a job. -/
theorem accessRead_error {s : Store} {e : StoreError} (h : s.accessRead = .error e) (n : Nat) :
    e ≠ .jobNotFound n := by
  rintro rfl
  unfold accessRead access at h
  split at h
  · cases h
  · split at h <;> cases h

theorem jobStatus_of_known {s : Store} {id : Nat} {entry : JobEntry}
    (hread : s.accessRead = .ok ()) (hknown : Ordered.find? id s.jobs = some entry) :
    s.jobStatus id = .ok entry.state := by
  rw [jobStatus, hread, hknown]
  rfl

theorem jobStatus_of_unknown {s : Store} {id : Nat} (hread : s.accessRead = .ok ())
    (hunknown : Ordered.find? id s.jobs = none) : s.jobStatus id = .error (.jobNotFound id) := by
  rw [jobStatus, hread, hunknown]
  rfl

/-- A submission leaves the outcomes as they are, or drops those whose time is over, and may enter
its own job. -/
theorem jobs_startJob (now : Instant) (request : JobRequest) (s : Store) :
    (s.startJob now request).2.jobs = s.jobs ∨
      (s.startJob now request).2.jobs = (s.sweepJobs now).jobs ∨
      (s.startJob now request).2.jobs =
        Ordered.insert s.nextJob ⟨.inProgress, none⟩ (s.sweepJobs now).jobs := by
  rcases s.startJob_inv now request with ⟨e, h⟩ | ⟨e, h⟩ | h
  · exact .inl (by rw [h])
  · exact .inr (.inl (by rw [h]; rfl))
  · exact .inr (.inr (by rw [h]))

theorem settings_startJob (now : Instant) (request : JobRequest) (s : Store) :
    (s.startJob now request).2.settings = s.settings := by
  rcases s.startJob_inv now request with ⟨e, h⟩ | ⟨e, h⟩ | h
  · rw [h]
  · rw [h]
    rfl
  · rw [h]
    rfl

theorem numbered_of_jobNumbers {s : Store} (h : s.jobNumbers = []) : s.Numbered := by
  obtain ⟨-, hpool⟩ := List.append_eq_nil_iff.mp h
  refine ⟨hpool ▸ List.nodup_nil, ?_⟩
  rw [h]
  exact List.forall_mem_nil _

end Store

namespace Moment

variable {m : Moment} {e : StoreEvent} {events later : List StoreEvent} {id : Nat}
  {outcome outcome' : JobState} {ended ended' : Instant}

theorem settings_after (m : Moment) (e : StoreEvent) :
    (m.after e).store.settings = m.store.settings := by
  cases e with
  | put address bins options => rw [after, Store.put, Store.write_kept]
  | delete address options => rw [after, Store.delete, Store.write_kept]
  | operate address ops options => rw [after, Store.operate_kept]
  | startJob request => exact m.store.settings_startJob m.now request
  | stepJob id =>
    rcases m.store.stepJob_kinds m.now id with h | ⟨_, _, -, -, ⟨_, h⟩ | ⟨_, _, h⟩⟩
    · rw [after, h]
    · rw [after, h]
      rfl
    · rw [after, h]
      rfl
  | dispatch | pause | node | fault | clock => rfl

theorem settings_run (m : Moment) (events : List StoreEvent) :
    (m.run events).store.settings = m.store.settings := by
  induction events generalizing m with
  | nil => rfl
  | cons e rest ih => exact (ih (m.after e)).trans (m.settings_after e)

theorem jobs_sorted_after (h : Ordered.Sorted m.store.jobs) (e : StoreEvent) :
    Ordered.Sorted (m.after e).store.jobs := by
  rcases m.after_cases e with ⟨hjobs, -⟩ | ⟨request, rfl⟩ | rfl | ⟨id, rfl⟩
  · exact hjobs.symm ▸ h
  · rcases m.store.jobs_startJob m.now request with hjobs | hjobs | hjobs
    · exact hjobs.symm ▸ h
    · exact hjobs.symm ▸ h.filter _
    · exact hjobs.symm ▸ (h.filter _).insert _ _
  · exact h
  · rcases m.store.stepJob_kinds m.now id with hs | ⟨_, _, -, -, ⟨outcome, hs⟩ | ⟨_, _, hs⟩⟩
    · rwa [after, hs]
    · rw [after, hs]
      exact h.insert _ _
    · rwa [after, hs]

theorem jobs_sorted_run (h : Ordered.Sorted m.store.jobs) (events : List StoreEvent) :
    Ordered.Sorted (m.run events).store.jobs := by
  induction events generalizing m with
  | nil => exact h
  | cons e rest ih => exact ih (jobs_sorted_after h e)

/-- What is known of a job that has been accepted stays known, unless its worker takes a step or a
submission finds that its time is over. -/
theorem find?_jobs_after (hsorted : Ordered.Sorted m.store.jobs) (hlt : id < m.store.nextJob)
    (he : e = .stepJob id → id ∉ m.store.pool.numbers) :
    Ordered.find? id (m.after e).store.jobs = Ordered.find? id m.store.jobs ∨
      ∃ request, e = .startJob request ∧
        Ordered.find? id (m.after e).store.jobs =
          (Ordered.find? id m.store.jobs).filter
            (·.isKept m.now m.store.settings.jobRetention) := by
  rcases m.after_cases e with ⟨hjobs, -⟩ | ⟨request, rfl⟩ | rfl | ⟨id', rfl⟩
  · exact .inl (congrArg _ hjobs)
  · have hswept : Ordered.find? id (m.store.sweepJobs m.now).jobs =
        (Ordered.find? id m.store.jobs).filter (·.isKept m.now m.store.settings.jobRetention) :=
      Ordered.find?_filter hsorted _ id
    rcases m.store.jobs_startJob m.now request with hjobs | hjobs | hjobs
    · exact .inl (congrArg _ hjobs)
    · exact .inr ⟨request, rfl, (congrArg _ hjobs).trans hswept⟩
    · refine .inr ⟨request, rfl, (congrArg _ hjobs).trans ?_⟩
      rw [Ordered.find?_insert, if_neg (Nat.ne_of_lt hlt), hswept]
  · exact .inl rfl
  · rcases m.store.stepJob_kinds m.now id' with hs | ⟨_, _, hfound, -, ⟨outcome, hs⟩ | ⟨_, _, hs⟩⟩
    · exact .inl (by rw [after, hs])
    · have hne : id ≠ id' := fun h =>
        he (h ▸ rfl) (h ▸ JobPool.mem_numbers_of_find? hfound)
      refine .inl ?_
      rw [after, hs]
      exact (Ordered.find?_insert ..).trans (if_neg hne)
    · exact .inl (by rw [after, hs]; rfl)

/-- A job that has been accepted stays in the pool until a step of its worker. -/
theorem mem_numbers_after (he : e ≠ .stepJob id) (h : id ∈ m.store.pool.numbers) :
    id ∈ (m.after e).store.pool.numbers := by
  rcases m.after_cases e with ⟨-, -, hpool⟩ | ⟨request, rfl⟩ | rfl | ⟨id', rfl⟩
  · exact hpool.symm ▸ h
  · rcases m.store.startJob_cases m.now request with
      ⟨_, s', hs', -, hqueue, hactive, -⟩ | ⟨s', hs', -, hqueue, hactive, -⟩
    · rw [after, hs', JobPool.numbers, hqueue, hactive]
      exact h
    · rw [after, hs', JobPool.numbers, hqueue, hactive, List.map_append]
      exact List.mem_append.mpr ((List.mem_append.mp h).imp_left (List.mem_append_left _))
  · exact (JobPool.numbers_dispatch m.store.pool).mem_iff.mpr h
  · have hne : id ≠ id' := fun heq => he (heq ▸ rfl)
    rcases m.store.stepJob_kinds m.now id' with hs | ⟨a, _, -, -, ⟨_, hs⟩ | ⟨_, _, hs⟩⟩
    · rwa [after, hs]
    · rw [after, hs]
      refine List.mem_append.mpr ((List.mem_append.mp h).imp_right fun hactive => ?_)
      obtain ⟨b, hb, rfl⟩ := List.mem_map.mp hactive
      exact List.mem_map_of_mem (List.mem_filter.mpr ⟨hb, decide_eq_true hne⟩)
    · rw [after, hs]
      exact (JobPool.numbers_update _ m.store.pool).symm ▸ h

theorem not_mem_numbers_run (hlt : id < m.store.nextJob) (h : id ∉ m.store.pool.numbers)
    (events : List StoreEvent) : id ∉ (m.run events).store.pool.numbers := by
  induction events generalizing m with
  | nil => exact h
  | cons e rest ih =>
    exact ih (Nat.lt_of_lt_of_le hlt (m.nextJob_after e)) (not_mem_numbers_after hlt h e)

/-- A job that is not in the pool makes no more changes. -/
theorem log_gone (hlt : id < m.store.nextJob) (h : id ∉ m.store.pool.numbers)
    (events : List StoreEvent) : (m.log events).filter (·.isOf id) = [] := by
  induction events generalizing m with
  | nil => rfl
  | cons e rest ih =>
    rw [log, List.filter_append, effects_of_gone h, List.nil_append]
    exact ih (Nat.lt_of_lt_of_le hlt (m.nextJob_after e)) (not_mem_numbers_after hlt h e)

/-! ## What has come of a job -/

/-- The job is accepted in the course of the events. -/
def Accepts (m : Moment) (events : List StoreEvent) (id : Nat) : Prop :=
  ∃ before request later, events = before ++ .startJob request :: later ∧
    ((m.run before).store.startJob (m.run before).now request).1 = .ok id

/-- The job ends in the course of the events: a step of its worker takes it out of the pool and
leaves its outcome and the time. -/
def Ends (m : Moment) (events : List StoreEvent) (id : Nat) (outcome : JobState)
    (ended : Instant) : Prop :=
  ∃ before later, events = before ++ .stepJob id :: later ∧
    id ∈ (m.run before).store.pool.numbers ∧
    id ∉ (m.run (before ++ [.stepJob id])).store.pool.numbers ∧
    (m.run before).now = ended ∧
    Ordered.find? id (m.run (before ++ [.stepJob id])).store.jobs = some ⟨outcome, some ended⟩

/-- The outcome of the job is forgotten in the course of the events: the job has ended, and when
another one is submitted the time for which an outcome is kept is over. -/
def Forgets (m : Moment) (events : List StoreEvent) (id : Nat) : Prop :=
  ∃ before request later outcome ended, events = before ++ .startJob request :: later ∧
    m.Ends before id outcome ended ∧
    ended + 1000 * (m.store.settings.jobRetention : Int) ≤ (m.run before).now ∧
    Ordered.find? id (m.run (before ++ [.startJob request])).store.jobs = none

theorem Accepts.append (h : m.Accepts events id) (later : List StoreEvent) :
    m.Accepts (events ++ later) id := by
  obtain ⟨before, request, rest, rfl, haccepted⟩ := h
  exact ⟨before, request, rest ++ later, List.append_assoc _ _ _, haccepted⟩

theorem Ends.append (h : m.Ends events id outcome ended) (later : List StoreEvent) :
    m.Ends (events ++ later) id outcome ended := by
  obtain ⟨before, rest, rfl, hends⟩ := h
  exact ⟨before, rest ++ later, List.append_assoc _ _ _, hends⟩

theorem Forgets.append (h : m.Forgets events id) (later : List StoreEvent) :
    m.Forgets (events ++ later) id := by
  obtain ⟨before, request, rest, outcome, ended, rfl, hforgets⟩ := h
  exact ⟨before, request, rest ++ later, outcome, ended, List.append_assoc _ _ _, hforgets⟩

theorem Forgets.ends (h : m.Forgets events id) :
    ∃ outcome ended, m.Ends events id outcome ended := by
  obtain ⟨before, request, rest, outcome, ended, rfl, hends, -⟩ := h
  exact ⟨outcome, ended, hends.append _⟩

theorem lt_nextJob_concat {before : List StoreEvent} (hnumbered : m.store.Numbered)
    (hin : id ∈ (m.run before).store.pool.numbers) (e : StoreEvent) :
    id < (m.run (before ++ [e])).store.nextJob := by
  rw [run_concat]
  exact Nat.lt_of_lt_of_le ((run_numbered hnumbered before).lt id (List.mem_append_right _ hin))
    (nextJob_after _ _)

/-- Once a step of its worker has taken a job out of the pool, it is not there again. -/
theorem gone_since {before : List StoreEvent} (hnumbered : m.store.Numbered)
    (hin : id ∈ (m.run before).store.pool.numbers)
    (hout : id ∉ (m.run (before ++ [.stepJob id])).store.pool.numbers)
    (later : List StoreEvent) :
    id ∉ (m.run (before ++ .stepJob id :: later)).store.pool.numbers := by
  rw [List.append_cons, run_append]
  exact not_mem_numbers_run (lt_nextJob_concat hnumbered hin _) hout later

/-- A job that has ended is in the pool no more. -/
theorem Ends.not_mem (h : m.Ends events id outcome ended) (hnumbered : m.store.Numbered) :
    id ∉ (m.run events).store.pool.numbers := by
  obtain ⟨before, later, rfl, hin, hout, -⟩ := h
  exact gone_since hnumbered hin hout later

/-- A job ends once. -/
theorem Ends.unique (h : m.Ends events id outcome ended) (h' : m.Ends events id outcome' ended')
    (hnumbered : m.store.Numbered) : outcome = outcome' ∧ ended = ended' := by
  obtain ⟨before, later, rfl, hin, hout, -, hfound⟩ := h
  obtain ⟨before', later', hsplit, hin', hout', -, hfound'⟩ := h'
  have hsame : before = before' := by
    rcases List.append_eq_append_iff.mp hsplit with ⟨between, rfl, hrest⟩ | ⟨between, rfl, hrest⟩
    · cases between with
      | nil => exact (List.append_nil before).symm
      | cons e rest =>
        obtain ⟨rfl, -⟩ := List.cons.inj hrest
        exact absurd hin' (gone_since hnumbered hin hout rest)
    · cases between with
      | nil => exact List.append_nil before'
      | cons e rest =>
        obtain ⟨rfl, -⟩ := List.cons.inj hrest
        exact absurd hin (gone_since hnumbered hin' hout' rest)
  subst hsame
  obtain ⟨houtcome, hended⟩ := JobEntry.mk.inj (Option.some.inj (hfound.symm.trans hfound'))
  exact ⟨houtcome, Option.some.inj hended⟩

/-! ## What is known of an accepted job -/

/-- What is known of a job that has been accepted in the course of the events: it waits or is being
worked on; or it has ended, and the store knows its outcome or has forgotten it. -/
inductive Fate (m : Moment) (events : List StoreEvent) (id : Nat) : Prop
  | underway (hin : id ∈ (m.run events).store.pool.numbers)
    (hknown : Ordered.find? id (m.run events).store.jobs = some ⟨.inProgress, none⟩)
  | known {outcome : JobState} {ended : Instant} (hends : m.Ends events id outcome ended)
    (hknown : Ordered.find? id (m.run events).store.jobs = some ⟨outcome, some ended⟩)
  | forgotten (hforgets : m.Forgets events id)
    (hunknown : Ordered.find? id (m.run events).store.jobs = none)

/-- A job that its worker ends leaves the pool, and leaves its outcome and the time. -/
theorem left_by_endJob {s : Store} {a : ActiveJob} (hnodup : m.store.pool.numbers.Nodup)
    (hfound : m.store.pool.find? id = some a) (hpool : s.pool = m.store.pool)
    (hafter : (m.after e).store = s.endJob m.now id outcome) :
    id ∉ (m.after e).store.pool.numbers ∧
      Ordered.find? id (m.after e).store.jobs = some ⟨outcome, some m.now⟩ := by
  rw [hafter]
  refine ⟨?_, (Ordered.find?_insert ..).trans (if_pos rfl)⟩
  show id ∉ (s.pool.release id).numbers
  rw [hpool]
  exact JobPool.not_mem_release hnodup hfound

/-- A step of its worker leaves a job underway, or ends it. -/
theorem step_underway (hin : id ∈ (m.run events).store.pool.numbers)
    (hknown : Ordered.find? id (m.run events).store.jobs = some ⟨.inProgress, none⟩)
    (hnodup : (m.run events).store.pool.numbers.Nodup) :
    m.Fate (events ++ [.stepJob id]) id := by
  have hrun := m.run_concat events (.stepJob id)
  rcases (m.run events).store.stepJob_kinds (m.run events).now id with
    hs | ⟨a, spaces, hfound, -, ⟨outcome, hs⟩ | ⟨left, modified, hs⟩⟩
  · rw [after, hs] at hrun
    exact .underway (hrun ▸ hin) (hrun ▸ hknown)
  · obtain ⟨hout, houtcome⟩ := left_by_endJob (m := m.run events) (e := .stepJob id)
      (s := { (m.run events).store with spaces }) hnodup hfound rfl hs
    rw [← hrun] at hout houtcome
    exact .known ⟨events, [], rfl, hin, hout, rfl, houtcome⟩ houtcome
  · rw [after, hs] at hrun
    refine .underway ?_ ?_
    · rw [hrun]
      exact (JobPool.numbers_update _ _).symm ▸ hin
    · rw [hrun]
      exact hknown

theorem Fate.concat (h : m.Fate events id) (hnumbered : m.store.Numbered)
    (hsorted : Ordered.Sorted m.store.jobs) (hlt : id < (m.run events).store.nextJob)
    (e : StoreEvent) : m.Fate (events ++ [e]) id := by
  have hrun := m.run_concat events e
  have hafter := find?_jobs_after (e := e) (jobs_sorted_run hsorted events) hlt
  -- Only a step of its own worker ends a job, and only a submission forgets one that has ended.
  cases h with
  | underway hin hknown =>
    by_cases he : e = .stepJob id
    · exact he ▸ step_underway hin hknown (run_numbered hnumbered events).nodup
    · refine .underway (hrun ▸ mem_numbers_after he hin) ?_
      rcases hafter fun h => absurd h he with hsame | ⟨request, -, hswept⟩
      · rw [hrun, hsame, hknown]
      · rw [hrun, hswept, hknown]
        rfl
  | known hends hknown =>
    rename_i outcome ended
    rcases hafter fun _ => hends.not_mem hnumbered with hsame | ⟨request, rfl, hswept⟩
    · exact .known (hends.append _) (by rw [hrun, hsame, hknown])
    · rw [hknown, settings_run] at hswept
      cases hkept : JobEntry.isKept (m.run events).now m.store.settings.jobRetention
          ⟨outcome, some ended⟩ with
      | true => exact .known (hends.append _) (by rw [hrun, hswept, Option.filter_some_pos hkept])
      | false =>
        have hnone : Ordered.find? id (m.run (events ++ [.startJob request])).store.jobs =
            none := by
          rw [hrun, hswept, Option.filter_some_neg hkept]
        refine .forgotten ⟨events, request, [], outcome, ended, rfl, hends, ?_, hnone⟩ hnone
        exact Int.not_lt.mp (of_decide_eq_false hkept)
  | forgotten hforgets hunknown =>
    obtain ⟨outcome, ended, hends⟩ := hforgets.ends
    refine .forgotten (hforgets.append _) ?_
    rcases hafter fun _ => hends.not_mem hnumbered with hsame | ⟨request, -, hswept⟩
    · rw [hrun, hsame, hunknown]
    · rw [hrun, hswept, hunknown]
      rfl

theorem Fate.run (h : m.Fate events id) (hnumbered : m.store.Numbered)
    (hsorted : Ordered.Sorted m.store.jobs) (hlt : id < (m.run events).store.nextJob)
    (later : List StoreEvent) : m.Fate (events ++ later) id := by
  induction later generalizing events with
  | nil => exact (List.append_nil events).symm ▸ h
  | cons e rest ih =>
    rw [List.append_cons]
    refine ih (h.concat hnumbered hsorted hlt e) ?_
    rw [run_concat]
    exact Nat.lt_of_lt_of_le hlt (nextJob_after _ _)

theorem Accepts.fate (h : m.Accepts events id) (hfirst : m.store.jobNumbers = []) :
    m.Fate events id := by
  have hnumbered := Store.numbered_of_jobNumbers hfirst
  have hsorted : Ordered.Sorted m.store.jobs := by
    rw [List.map_eq_nil_iff.mp (List.append_eq_nil_iff.mp hfirst).1]
    exact List.Pairwise.nil
  obtain ⟨before, request, later, rfl, haccepted⟩ := h
  have hrun := m.run_concat before (.startJob request)
  rcases (m.run before).store.startJob_cases (m.run before).now request with
    ⟨_, s', hs', -⟩ | ⟨s', hs', hjobs, hqueue, -, hnext⟩
  · rw [hs'] at haccepted
    cases haccepted
  · rw [hs'] at haccepted
    rw [after, hs'] at hrun
    obtain rfl := Except.ok.inj haccepted
    rw [List.append_cons]
    refine Fate.run (.underway ?_ ?_) hnumbered hsorted ?_ later
    · rw [hrun, JobPool.numbers, hqueue, List.map_append]
      exact List.mem_append_left _ (List.mem_append_right _ List.mem_cons_self)
    · rw [hrun]
      exact (congrArg _ hjobs).trans ((Ordered.find?_insert ..).trans (if_pos rfl))
    · rw [hrun]
      exact hnext ▸ Nat.lt_succ_self _

/-- Every number in use that was not there before was given to a job when it was accepted. -/
theorem mem_jobNumbers_run (events : List StoreEvent)
    (h : id ∈ (m.run events).store.jobNumbers) :
    id ∈ m.store.jobNumbers ∨ m.Accepts events id := by
  induction events generalizing m with
  | nil => exact .inl h
  | cons e rest ih =>
    rcases ih h with hmem | ⟨before, request, later, rfl, haccepted⟩
    · by_cases he : ∃ request, e = .startJob request
      · obtain ⟨request, rfl⟩ := he
        exact (Store.mem_jobNumbers_startJob rfl hmem).imp_right
          fun haccepted => ⟨[], request, rest, rfl, haccepted⟩
      · exact .inl (mem_jobNumbers_after (fun request hreq => he ⟨request, hreq⟩) hmem)
    · exact .inr ⟨e :: before, request, later, rfl, haccepted⟩

/-- What is answered about a job that has been accepted: the store is out of reach, or the answer is
how the job stands. -/
theorem Fate.jobStatus_cases (h : m.Fate events id) :
    (∃ e, (m.run events).store.jobStatus id = .error e ∧ ∀ n, e ≠ .jobNotFound n) ∨
      (m.run events).store.jobStatus id = .ok .inProgress ∨
      (∃ outcome ended, m.Ends events id outcome ended ∧
        (m.run events).store.jobStatus id = .ok outcome) ∨
      (m.Forgets events id ∧ (m.run events).store.jobStatus id = .error (.jobNotFound id)) := by
  cases hread : (m.run events).store.accessRead with
  | error e =>
    refine .inl ⟨e, ?_, Store.accessRead_error hread⟩
    rw [Store.jobStatus, hread]
    rfl
  | ok _ =>
    cases h with
    | underway _ hknown =>
      exact .inr (.inl (Store.jobStatus_of_known hread hknown))
    | known hends hknown =>
      exact .inr (.inr (.inl ⟨_, _, hends, Store.jobStatus_of_known hread hknown⟩))
    | forgotten hforgets hunknown =>
      exact .inr (.inr (.inr ⟨hforgets, Store.jobStatus_of_unknown hread hunknown⟩))

/-- A job that is done has made as many changes as its outcome says. -/
theorem Ends.count {n : Nat} (h : m.Ends events id (.done n) ended)
    (hfirst : m.store.jobNumbers = []) :
    n = ((m.log events).filter (·.isOf id)).length := by
  have hnumbered := Store.numbered_of_jobNumbers hfirst
  obtain ⟨before, later, rfl, hin, hout, -, hfound⟩ := h
  have hlt := lt_nextJob_concat hnumbered hin (.stepJob id)
  have hlog : (m.log (before ++ .stepJob id :: later)).filter (·.isOf id) =
      (m.log (before ++ [.stepJob id])).filter (·.isOf id) := by
    rw [List.append_cons, log_append, List.filter_append, log_gone hlt hout, List.append_nil]
  rcases mem_jobNumbers_run before (List.mem_append_right _ hin) with
    hold | ⟨earlier, request, since, rfl, haccepted⟩
  · rw [hfirst] at hold
    cases hold
  · rw [hlog, List.append_assoc, List.cons_append]
    rw [List.append_assoc, List.cons_append] at hfound
    exact count_of_known hnumbered haccepted (Ordered.mem_of_find? hfound) rfl

/-- A job changes no record twice. -/
theorem Accepts.digests_nodup (h : m.Accepts events id) (hfirst : m.store.jobNumbers = [])
    (hwf : m.store.WellFormed) :
    (((m.log events).filter (·.isOf id)).map (·.digest)).Nodup := by
  obtain ⟨before, request, later, rfl, haccepted⟩ := h
  obtain ⟨-, hascending, -⟩ := log_accepted hwf (Store.numbered_of_jobNumbers hfirst) haccepted
  refine List.Pairwise.imp ?_ hascending
  intro a b hlt heq
  exact Ordered.not_lt_self b (heq ▸ hlt)

end Moment
end RecordService
