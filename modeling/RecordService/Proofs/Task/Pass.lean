import RecordService.Proofs.Task.Outcome
import RecordService.Proofs.Task.Sweep

/-!
# A pass of the poller

The poller notes the running tasks, and then goes from one to the next in no particular order: it
asks the store about the job of the task, and finishes the task if the job has ended. That is a
fold over single tasks, each visited at its own time. A visit touches no task but its own, so what a
pass makes of a task can be read off the task, its job and the time of its visit. All this is about
registries without double names, which every run leads to (`Traffic.Run.accounted`).

* `TaskRegistry.noted`: what the poller notes. `TaskRegistry.visit`, `TaskRegistry.pass`: what it
  then does to the registry.
* `Task.visited`: what visits make of one task by itself. `TaskRegistry.pass_eq`: a pass is that,
  task by task.
* `TaskRegistry.visited_noted`: in a pass a running task is visited once, by the number of its job.
* `TaskState.ofJob`, `TaskRegistry.pass_exact`: where a pass leaves every task.
-/

namespace RecordService

/-- A visit of the poller to a task that it has noted. -/
structure PollerVisit where
  /-- When the task is finished, if it is. -/
  now : Instant
  id : TaskId
  job : Nat
  deriving DecidableEq, Repr

namespace PollerVisit

/-- What the poller had noted for a visit. -/
def subject (v : PollerVisit) : TaskId × Nat := (v.id, v.job)

end PollerVisit

/-- Where a task that was running is to stand, by what the store knows of its job. -/
def TaskState.ofJob (now : Instant) : Option JobState → TaskState
  | some .inProgress => running
  | some (.done n) => complete n now
  | some (.failed reason) => failed reason now
  | none => failed forgottenReason now

namespace TaskRegistry

/-- The names of the running tasks and the numbers of their jobs. -/
def noted (r : TaskRegistry) : List (TaskId × Nat) :=
  (r.tasks.filter (·.state = .running)).map fun t => (t.id, t.job)

/-- The registry after a visit: the store is asked, and the task finished. -/
def visit (s : Store) (r : TaskRegistry) (v : PollerVisit) : TaskRegistry :=
  let (look, r) := (PollerLook.noted v.id v.job).next v.now r s
  (look.next v.now r s).2

/-- The registry after visits, one after the other. -/
def pass (s : Store) (r : TaskRegistry) (visits : List PollerVisit) : TaskRegistry :=
  visits.foldl (visit s) r

end TaskRegistry

/-! ## One task -/

namespace Task

variable {s : Store} {v : PollerVisit} {visits : List PollerVisit} {task : Task}

/-- A task after visits, of which only those to the task itself do anything. -/
def visited (s : Store) (visits : List PollerVisit) (task : Task) : Task :=
  visits.foldl (fun t v => if t.id = v.id then t.poll v.now fun _ => s.jobStatus v.job else t) task

theorem visited_cons (task : Task) : task.visited s (v :: visits) =
    (if task.id = v.id then task.poll v.now fun _ => s.jobStatus v.job else task).visited s
      visits :=
  rfl

theorem visited_append (front back : List PollerVisit) (task : Task) :
    task.visited s (front ++ back) = (task.visited s front).visited s back :=
  List.foldl_append

theorem visited_of_ended (h : task.state ≠ .running) : task.visited s visits = task := by
  induction visits with
  | nil => rfl
  | cons v rest ih => rw [visited_cons, poll_of_ended h, ite_self, ih]

theorem visited_of_not_mem (h : ∀ v ∈ visits, task.id ≠ v.id) : task.visited s visits = task := by
  induction visits with
  | nil => rfl
  | cons v rest ih =>
    obtain ⟨hne, hrest⟩ := List.forall_mem_cons.mp h
    rw [visited_cons, if_neg hne, ih hrest]

/-- What visits to different tasks make of a task is what the one visit to it does, whenever that
comes. -/
theorem visited_of_mem (hdistinct : (visits.map (·.id)).Nodup) (hv : v ∈ visits)
    (hid : task.id = v.id) :
    task.visited s visits = task.poll v.now fun _ => s.jobStatus v.job := by
  obtain ⟨front, back, rfl⟩ := List.append_of_mem hv
  rw [List.map_append, List.map_cons, List.nodup_middle, List.nodup_cons] at hdistinct
  have hother : ∀ w ∈ front ++ back, task.id ≠ w.id := fun w hw heq =>
    hdistinct.1 (List.map_append ▸ List.mem_map.mpr ⟨w, hw, heq.symm.trans hid⟩)
  rw [visited_append, visited_of_not_mem fun w hw => hother w (List.mem_append_left _ hw),
    visited_cons, if_pos hid]
  refine visited_of_not_mem fun w hw => ?_
  rw [poll_id]
  exact hother w (List.mem_append_right _ hw)

end Task

/-! ## All tasks -/

namespace TaskRegistry

variable {r : TaskRegistry} {s : Store} {visits visits' : List PollerVisit} {task : Task}

/-- A pass visits each task by itself. -/
theorem pass_eq (s : Store) (r : TaskRegistry) (visits : List PollerVisit) :
    r.pass s visits = { r with tasks := r.tasks.map (Task.visited s visits) } := by
  induction visits generalizing r with
  | nil =>
    show r = { r with tasks := r.tasks.map id }
    rw [List.map_id]
  | cons v rest ih =>
    show (r.pollOne v.now v.id (s.jobStatus v.job)).pass s rest = _
    rw [ih, pollOne, List.map_map]
    rfl

/-- A pass is what it makes of each of the tasks that are there. -/
theorem pass_eq_map {f : Task → Task} (h : ∀ t ∈ r.tasks, t.visited s visits = f t) :
    r.pass s visits = { r with tasks := r.tasks.map f } := by
  rw [pass_eq, List.map_congr_left h]

/-- In a registry without double names, what the poller notes of a task is the number of its job. -/
theorem mem_noted (hr : r.Distinct) (htask : task ∈ r.tasks) {job : Nat} :
    (task.id, job) ∈ r.noted ↔ task.state = .running ∧ task.job = job := by
  constructor
  · intro hmem
    obtain ⟨other, hother, heq⟩ := List.mem_map.mp hmem
    obtain ⟨hother, hrunning⟩ := List.mem_filter.mp hother
    obtain ⟨hid, hjob⟩ := Prod.mk.inj heq
    obtain rfl := List.inj_on_of_nodup_map hr hother htask hid
    exact ⟨of_decide_eq_true hrunning, hjob⟩
  · rintro ⟨hrunning, rfl⟩
    exact List.mem_map.mpr ⟨task, List.mem_filter.mpr ⟨htask, decide_eq_true hrunning⟩, rfl⟩

theorem noted_distinct (hr : r.Distinct) : (r.noted.map Prod.fst).Nodup := by
  rw [noted, List.map_map]
  exact hr.sublist (List.filter_sublist.map _)

/-- The visits of a pass are to different tasks. -/
theorem visits_distinct (hr : r.Distinct)
    (hvisits : (visits.map PollerVisit.subject).Perm r.noted) :
    (visits.map (·.id)).Nodup := by
  have hperm := hvisits.map Prod.fst
  rw [List.map_map] at hperm
  exact hperm.nodup_iff.mpr (noted_distinct hr)

/-- In a pass a running task is visited once, and by the number of its own job. -/
theorem visited_noted (hr : r.Distinct)
    (hvisits : (visits.map PollerVisit.subject).Perm r.noted) (htask : task ∈ r.tasks)
    (hrunning : task.state = .running) :
    ∃ now, ⟨now, task.id, task.job⟩ ∈ visits ∧ task.visited s visits =
      { task with state := Task.stateAfter now (s.jobStatus task.job) } := by
  have hnoted := hvisits.mem_iff.mpr ((mem_noted hr htask).mpr ⟨hrunning, rfl⟩)
  obtain ⟨⟨now, id, job⟩, hv, hsubject⟩ := List.mem_map.mp hnoted
  obtain ⟨rfl, rfl⟩ := Prod.mk.inj hsubject
  refine ⟨now, hv, ?_⟩
  rw [Task.visited_of_mem (visits_distinct hr hvisits) hv rfl, Task.poll_of_running hrunning]

/-- A pass changes nothing where no running task has a job that has ended. -/
theorem pass_eq_self (hr : r.Distinct)
    (hvisits : (visits.map PollerVisit.subject).Perm r.noted)
    (hstay : ∀ task ∈ r.tasks, task.state = .running →
      ∀ now, Task.stateAfter now (s.jobStatus task.job) = .running) :
    r.pass s visits = r := by
  have hsame : r.pass s visits = { r with tasks := r.tasks.map id } := by
    refine pass_eq_map fun task htask => ?_
    by_cases hrunning : task.state = .running
    · obtain ⟨now, -, hvisited⟩ := visited_noted hr hvisits htask hrunning
      rw [hvisited, hstay task htask hrunning now, ← hrunning]
      rfl
    · exact Task.visited_of_ended hrunning
  rw [hsame, List.map_id]

/-- The same visits in another order leave the same. -/
theorem pass_perm (hr : r.Distinct)
    (hvisits : (visits.map PollerVisit.subject).Perm r.noted) (hperm : visits'.Perm visits) :
    r.pass s visits' = r.pass s visits := by
  have hdistinct := visits_distinct hr hvisits
  have hdistinct' := (hperm.map (·.id)).nodup_iff.mpr hdistinct
  rw [pass_eq s r visits]
  refine pass_eq_map fun task _ => ?_
  by_cases hv : ∃ v ∈ visits, task.id = v.id
  · obtain ⟨v, hv, hid⟩ := hv
    rw [Task.visited_of_mem hdistinct hv hid,
      Task.visited_of_mem hdistinct' (hperm.mem_iff.mpr hv) hid]
  · have hnone : ∀ v ∈ visits, task.id ≠ v.id := fun v hmem hid => hv ⟨v, hmem, hid⟩
    rw [Task.visited_of_not_mem hnone,
      Task.visited_of_not_mem fun v hmem => hnone v (hperm.mem_iff.mp hmem)]

/-- Where time stands still in a pass, it is one look at all jobs. -/
theorem pass_eq_poll (hr : r.Distinct)
    (hvisits : (visits.map PollerVisit.subject).Perm r.noted) {now : Instant}
    (hnow : ∀ v ∈ visits, v.now = now) : r.pass s visits = r.poll now s.jobStatus := by
  refine pass_eq_map fun task htask => ?_
  by_cases hrunning : task.state = .running
  · obtain ⟨at_, hv, hvisited⟩ := visited_noted hr hvisits htask hrunning
    obtain rfl : at_ = now := hnow _ hv
    rw [hvisited, Task.poll_of_running hrunning]
  · rw [Task.visited_of_ended hrunning, Task.poll_of_ended hrunning]

end TaskRegistry

/-! ## Where a pass leaves every task -/

/-- What the store answers about a job moves a running task to where it is to stand. -/
theorem Task.stateAfter_jobStatus {s : Store} (hread : s.accessRead = .ok ()) (now : Instant)
    (job : Nat) : Task.stateAfter now (s.jobStatus job) =
      .ofJob now ((Ordered.find? job s.jobs).map (·.state)) := by
  cases hknown : Ordered.find? job s.jobs with
  | none =>
    rw [Store.jobStatus_of_unknown hread hknown]
    rfl
  | some entry =>
    rw [Store.jobStatus_of_known hread hknown]
    obtain ⟨state, finishedAt⟩ := entry
    cases state <;> rfl

/-- A task that is left running at one time is left running at any other. -/
theorem TaskState.ofJob_eq_running {now now' : Instant} {known : Option JobState}
    (h : ofJob now known = running) : ofJob now' known = running := by
  match known, h with
  | some .inProgress, _ => rfl

namespace TaskRegistry

variable {r : TaskRegistry} {s : Store} {visits : List PollerVisit}

/-- Where reads are let through, a pass leaves a running task where its job says. -/
theorem visited_running (hr : r.Distinct)
    (hvisits : (visits.map PollerVisit.subject).Perm r.noted) (hread : s.accessRead = .ok ())
    {task : Task} (htask : task ∈ r.tasks) (hrunning : task.state = .running) :
    ∃ now, ⟨now, task.id, task.job⟩ ∈ visits ∧ task.visited s visits =
      { task with state := .ofJob now ((Ordered.find? task.job s.jobs).map (·.state)) } := by
  obtain ⟨now, hv, hvisited⟩ := visited_noted (s := s) hr hvisits htask hrunning
  exact ⟨now, hv, Task.stateAfter_jobStatus hread now task.job ▸ hvisited⟩

/-- Only the states of tasks change in a pass. -/
theorem pass_states (hr : r.Distinct)
    (hvisits : (visits.map PollerVisit.subject).Perm r.noted) :
    r.pass s visits =
      { r with tasks := r.tasks.map fun t => { t with state := (t.visited s visits).state } } := by
  refine pass_eq_map fun task htask => ?_
  by_cases hrunning : task.state = .running
  · obtain ⟨now, -, hvisited⟩ := visited_noted (s := s) hr hvisits htask hrunning
    rw [hvisited]
  · rw [Task.visited_of_ended hrunning]

theorem pass_distinct (hr : r.Distinct)
    (hvisits : (visits.map PollerVisit.subject).Perm r.noted) : (r.pass s visits).Distinct := by
  rw [Distinct, pass_states hr hvisits, List.map_map]
  exact hr

/-- A pass leaves nothing to do for another one: a task that it leaves running has a job that is in
progress. -/
theorem pass_pass (hr : r.Distinct)
    (hvisits : (visits.map PollerVisit.subject).Perm r.noted) (hread : s.accessRead = .ok ())
    {again : List PollerVisit}
    (hagain : (again.map PollerVisit.subject).Perm (r.pass s visits).noted) :
    (r.pass s visits).pass s again = r.pass s visits := by
  refine pass_eq_self (pass_distinct hr hvisits) hagain fun task htask hstill now => ?_
  rw [pass_eq] at htask
  obtain ⟨before, hbefore, rfl⟩ := List.mem_map.mp htask
  have hrunning : before.state = .running := by
    by_contra hended
    exact hended (Task.visited_of_ended hended ▸ hstill)
  obtain ⟨visited, -, heq⟩ := visited_running hr hvisits hread hbefore hrunning
  rw [heq] at hstill ⊢
  rw [Task.stateAfter_jobStatus hread]
  exact TaskState.ofJob_eq_running hstill

/-- A pass of the poller is exact. Where the store does not let reads through, no task changes.
Where it does, only the states of tasks change, and each task by itself: one that had ended is as it
was, and one that was running stands where its own job says, ended as of its own visit if it has.
The order of the visits is of no account, another pass right afterwards changes nothing, and if time
stands still the pass is one look at all jobs. -/
theorem pass_exact (hr : r.Distinct) (s : Store)
    (hvisits : (visits.map PollerVisit.subject).Perm r.noted) :
    (∀ e, s.accessRead = .error e → r.pass s visits = r) ∧
      (s.accessRead = .ok () →
        (∃ state : Task → TaskState,
          r.pass s visits =
              { r with tasks := r.tasks.map fun t => { t with state := state t } } ∧
            ∀ t ∈ r.tasks,
              (t.state ≠ .running → state t = t.state) ∧
                (t.state = .running → ∃ now, ⟨now, t.id, t.job⟩ ∈ visits ∧
                  state t = .ofJob now ((Ordered.find? t.job s.jobs).map (·.state)))) ∧
          ∀ again : List PollerVisit,
            (again.map PollerVisit.subject).Perm (r.pass s visits).noted →
              (r.pass s visits).pass s again = r.pass s visits) ∧
      (∀ visits', visits'.Perm visits → r.pass s visits' = r.pass s visits) ∧
      ∀ now, (∀ v ∈ visits, v.now = now) → r.pass s visits = r.poll now s.jobStatus := by
  refine ⟨fun e he => ?_, fun hread => ⟨⟨fun t => (t.visited s visits).state, ?_, ?_⟩, ?_⟩, ?_, ?_⟩
  · refine pass_eq_self hr hvisits fun task _ _ now => ?_
    have hrefused : s.jobStatus task.job = .error e := by
      rw [Store.jobStatus, he]
      rfl
    rw [hrefused, Task.stateAfter_error (Store.accessRead_error he)]
  · exact pass_states hr hvisits
  · refine fun t ht => ⟨fun hended => ?_, fun hrunning => ?_⟩
    · exact congrArg Task.state (Task.visited_of_ended hended)
    · obtain ⟨now, hv, hvisited⟩ := visited_running hr hvisits hread ht hrunning
      exact ⟨now, hv, congrArg Task.state hvisited⟩
  · exact fun again hagain => pass_pass hr hvisits hread hagain
  · exact fun visits' hperm => pass_perm hr hvisits hperm
  · exact fun now hnow => pass_eq_poll hr hvisits hnow

/-! ### Five tasks -/

/-- Four running tasks, whose jobs have come to different ends, and one that has ended. -/
def fiveTasks : TaskRegistry :=
  let task (n : Nat) (state : TaskState) : Task := ⟨⟨n⟩, n, "test", none, 0, state⟩
  { limits := {}
    tasks := [task 1 .running, task 2 .running, task 3 (.complete 9 0), task 4 .running,
      task 5 .running]
    reserved := 5 }

/-- The first of four jobs is in progress, the second is done, the fourth has failed, and the
fifth is not known. -/
def fiveJobs : Store :=
  { Store.empty {} with
    jobs := [(1, ⟨.inProgress, none⟩), (2, ⟨.done 7, some 0⟩), (3, ⟨.done 9, some 0⟩),
      (4, ⟨.failed "disk full", some 0⟩)] }

/-- The running ones of five tasks are visited from the last to the first. -/
def fromTheLast : List PollerVisit := [⟨10, ⟨5⟩, 5⟩, ⟨11, ⟨4⟩, 4⟩, ⟨12, ⟨2⟩, 2⟩, ⟨13, ⟨1⟩, 1⟩]

/-- The four tasks are left where their jobs say, and a second visit to the one that is left
changes nothing. -/
theorem pass_exact_fiveTasks :
    (fiveTasks.pass fiveJobs fromTheLast).tasks.map (·.state) =
        [.running, .complete 7 12, .complete 9 0, .failed "disk full" 11,
          .failed forgottenReason 10] ∧
      (fiveTasks.pass fiveJobs fromTheLast).pass fiveJobs [⟨20, ⟨1⟩, 1⟩] =
        fiveTasks.pass fiveJobs fromTheLast ∧
      fiveTasks.pass fiveJobs fromTheLast.reverse = fiveTasks.pass fiveJobs fromTheLast := by
  have hdistinct : fiveTasks.Distinct := by
    unfold Distinct
    decide
  have hvisits : (fromTheLast.map PollerVisit.subject).Perm fiveTasks.noted :=
    List.reverse_perm fiveTasks.noted
  obtain ⟨-, hread, horder, -⟩ := pass_exact hdistinct fiveJobs hvisits
  exact ⟨rfl, (hread rfl).2 [⟨20, ⟨1⟩, 1⟩] (List.Perm.refl _), horder _ (List.reverse_perm _)⟩

end TaskRegistry
end RecordService
