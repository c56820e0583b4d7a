import RecordService.Proofs.Task.Tracking

/-!
# The life of a task

A task is running from the moment its submission returns until the poller finds that its job has
ended, then finished with one outcome until its retention is over, and then gone for good. At each
of these stages a call for its status is told one thing only, whatever other calls, the poller and
the store are about.

* `TaskService.IsUnborn`, `IsRunning`, `IsFinished`, `IsOver`: the stages. For each, what an event
  leads to (`after`), what it tells (`answer`), and what a run tells (`answers`).
* `TaskService.LifeTold`: what a run tells about a task, in its order.
* `TaskService.answers_in_order`: what is told about a task in the course of a run.
-/

namespace RecordService

namespace TaskState

/-- Of when a task ended, the count of its records and why it failed, a state shows what belongs to
its status and nothing else. -/
def ShowsItsFields (state : TaskState) : Prop :=
  match state.status with
  | .running => state.finishedAt = none ∧ state.records = none ∧ state.reason = none
  | .complete => state.finishedAt.isSome ∧ state.records.isSome ∧ state.reason = none
  | .error => state.finishedAt.isSome ∧ state.records = none ∧ state.reason.isSome

theorem showsItsFields (state : TaskState) : state.ShowsItsFields := by
  cases state with
  | running => exact ⟨rfl, rfl, rfl⟩
  | complete => exact ⟨rfl, rfl, rfl⟩
  | failed => exact ⟨rfl, rfl, rfl⟩

end TaskState

namespace TaskService

variable {t : TaskService} {e : TaskEvent} {events : List TaskEvent} {id : TaskId} {task : Task}
  {outcome : TaskState} {a : Except TaskError Task}

/-! ## The stages of a task -/

/-- A submission has returned the task, and none has returned another one of its name. -/
structure Known (t : TaskService) (task : Task) : Prop where
  returned : task ∈ t.returned
  running : task.state = .running
  only : ∀ x ∈ t.returned, x.id = task.id → x = task

/-- No task of the name has been there. -/
structure IsUnborn (t : TaskService) (id : TaskId) : Prop where
  none : t.registry.named id = []
  unknown : ∀ x ∈ t.returned, x.id ≠ id
  quiet : t.Quiet id

/-- The task is running. -/
structure IsRunning (t : TaskService) (task : Task) : Prop extends Known t task where
  one : t.registry.named task.id = [task]
  quiet : t.Quiet task.id

/-- The task has ended with an outcome, and its retention is not over. -/
structure IsFinished (t : TaskService) (task : Task) (outcome : TaskState) : Prop
    extends Known t task where
  one : t.registry.named task.id = [{ task with state := outcome }]
  ended : outcome ≠ .running
  kept : Task.isExpired t.now t.registry.limits.retention { task with state := outcome } = false
  quiet : t.Quiet task.id

/-- The task has ended with an outcome and its retention is over, whether or not it has been
dropped. -/
structure IsOver (t : TaskService) (task : Task) (outcome : TaskState) : Prop
    extends Known t task where
  rest : ∀ x ∈ t.registry.named task.id, x = { task with state := outcome }
  expired : Task.isExpired t.now t.registry.limits.retention { task with state := outcome }

/-- A task that has been returned stays so, and no other one gets its name. -/
theorem Known.after (h : t.Known task) (he : t.Allows e) : (t.after e).Known task := by
  rcases tracked_after he task.id with ⟨hreturned, -⟩ | ⟨new, -, hfresh, hreturned, -⟩
  · exact ⟨hreturned ▸ h.returned, h.running, hreturned ▸ h.only⟩
  · refine ⟨(hreturned task).mpr (.inl h.returned), h.running, fun x hx hid => ?_⟩
    rcases (hreturned x).mp hx with hx | rfl
    · exact h.only x hx hid
    · exact absurd hid.symm (hfresh task h.returned)

theorem Known.run (h : t.Known task) (horderly : t.Orderly events) :
    (t.run events).Known task := by
  induction events generalizing t with
  | nil => exact h
  | cons e rest ih => exact ih (h.after horderly.1) horderly.2

/-- To tasks that have not expired and that no call is about to drop, an event can only add a new
one, or the poller moves them. -/
theorem tracked_after_of_quiet (he : t.Allows e) (hquiet : t.Quiet id)
    (hlive : ∀ task ∈ t.registry.named id,
      task.isExpired t.now t.registry.limits.retention = false) :
    ((t.after e).returned = t.returned ∧
        ((t.after e).registry.named id = t.registry.named id ∨
          ∃ answer, (t.after e).registry.named id =
            (t.registry.named id).map (·.poll t.now fun _ => answer))) ∨
      ∃ task, task.state = .running ∧ (∀ x ∈ t.returned, x.id ≠ task.id) ∧
        (∀ x, x ∈ (t.after e).returned ↔ x ∈ t.returned ∨ x = task) ∧
        (t.after e).registry.named id =
          t.registry.named id ++ if task.id = id then [task] else [] := by
  rcases tracked_after he id with
    ⟨hreturned, hsame | hevicted | ⟨hdrops, -⟩ | ⟨_, answer, -, hpolled⟩⟩ | hnew
  · exact .inl ⟨hreturned, .inl hsame⟩
  · refine .inl ⟨hreturned, .inl (hevicted.trans ?_)⟩
    exact List.filter_eq_self.mpr fun task htask => by rw [hlive task htask]; rfl
  · exact absurd hquiet hdrops
  · exact .inl ⟨hreturned, .inr ⟨answer, hpolled⟩⟩
  · exact .inr hnew

/-! ### Before the submission -/

theorem IsUnborn.after (h : t.IsUnborn id) (he : t.Allows e) :
    (t.after e).IsUnborn id ∨ ∃ task, task.id = id ∧ (t.after e).IsRunning task := by
  have hlive : ∀ task ∈ t.registry.named id,
      task.isExpired t.now t.registry.limits.retention = false := by
    rw [h.none]
    exact List.forall_mem_nil _
  have hquiet := h.quiet.after he hlive
  rcases tracked_after_of_quiet he h.quiet hlive with
    ⟨hreturned, hsame | ⟨answer, hpolled⟩⟩ | ⟨task, hrunning, hfresh, hreturned, hnamed⟩
  · exact .inl ⟨hsame.trans h.none, hreturned ▸ h.unknown, hquiet⟩
  · rw [h.none, List.map_nil] at hpolled
    exact .inl ⟨hpolled, hreturned ▸ h.unknown, hquiet⟩
  · rw [h.none, List.nil_append] at hnamed
    by_cases hid : task.id = id
    · subst hid
      rw [if_pos rfl] at hnamed
      refine .inr ⟨task, rfl, ⟨(hreturned task).mpr (.inr rfl), hrunning, fun x hx hid => ?_⟩,
        hnamed, hquiet⟩
      rcases (hreturned x).mp hx with hx | rfl
      · exact absurd hid (hfresh x hx)
      · rfl
    · rw [if_neg hid] at hnamed
      refine .inl ⟨hnamed, fun x hx => ?_, hquiet⟩
      rcases (hreturned x).mp hx with hx | rfl
      · exact h.unknown x hx
      · exact hid

theorem IsUnborn.answer (h : t.IsUnborn id) (ha : t.answer? id e = some a) : IsMissing a := by
  rcases answer?_cases ha with ⟨hmissing, -⟩ | ⟨task, htask, -⟩
  · exact hmissing
  · rw [h.none] at htask
    cases htask

/-! ### While the task is running -/

theorem IsRunning.live (h : t.IsRunning task) : ∀ x ∈ t.registry.named task.id,
    x.isExpired t.now t.registry.limits.retention = false := by
  rw [h.one]
  exact List.forall_mem_singleton.mpr (Task.isExpired_of_running h.running _ _)

/-- A task that has ended is finished, or over at once. -/
theorem Known.finished_or_over (h : t.Known task) (hquiet : t.Quiet task.id)
    (hone : t.registry.named task.id = [{ task with state := outcome }])
    (hended : outcome ≠ .running) : t.IsFinished task outcome ∨ t.IsOver task outcome := by
  cases hexpired : Task.isExpired t.now t.registry.limits.retention
      { task with state := outcome } with
  | false => exact .inl ⟨h, hone, hended, hexpired, hquiet⟩
  | true =>
    refine .inr ⟨h, ?_, hexpired⟩
    rw [hone]
    exact List.forall_mem_singleton.mpr rfl

theorem IsRunning.after (h : t.IsRunning task) (he : t.Allows e) :
    (t.after e).IsRunning task ∨
      ∃ outcome, { task with state := outcome } ∈ (t.after e).registry.tasks ∧
        ((t.after e).IsFinished task outcome ∨ (t.after e).IsOver task outcome) := by
  have hknown := h.toKnown.after he
  have hquiet := h.quiet.after he h.live
  rcases tracked_after_of_quiet he h.quiet h.live with
    ⟨-, hsame | ⟨answer, hpolled⟩⟩ | ⟨new, -, hfresh, -, hnamed⟩
  · exact .inl ⟨hknown, hsame.trans h.one, hquiet⟩
  · rw [h.one, List.map_singleton, Task.poll_of_running h.running] at hpolled
    by_cases hrunning : Task.stateAfter t.now answer = .running
    · rw [hrunning, ← h.running] at hpolled
      exact .inl ⟨hknown, hpolled, hquiet⟩
    · have hmem : { task with state := Task.stateAfter t.now answer } ∈
          (t.after e).registry.named task.id := by
        rw [hpolled]
        exact List.mem_cons_self
      exact .inr ⟨_, (List.mem_filter.mp hmem).1,
        hknown.finished_or_over hquiet hpolled hrunning⟩
  · rw [if_neg (Ne.symm (hfresh task h.returned)), List.append_nil] at hnamed
    exact .inl ⟨hknown, hnamed.trans h.one, hquiet⟩

theorem IsRunning.answer (h : t.IsRunning task) (ha : t.answer? task.id e = some a) :
    a = .ok task := by
  rcases answer?_cases ha with ⟨-, hnone | hdrops⟩ | ⟨x, hx, rfl, -⟩
  · rw [h.one] at hnone
    cases hnone
  · exact absurd h.quiet hdrops
  · rw [h.one] at hx
    rw [List.mem_singleton.mp hx]

/-! ### Until the retention is over -/

theorem IsFinished.live (h : t.IsFinished task outcome) : ∀ x ∈ t.registry.named task.id,
    x.isExpired t.now t.registry.limits.retention = false := by
  rw [h.one]
  exact List.forall_mem_singleton.mpr h.kept

theorem IsFinished.after (h : t.IsFinished task outcome) (he : t.Allows e) :
    (t.after e).IsFinished task outcome ∨ (t.after e).IsOver task outcome := by
  have hknown := h.toKnown.after he
  have hquiet := h.quiet.after he h.live
  rcases tracked_after_of_quiet he h.quiet h.live with
    ⟨-, hsame | ⟨answer, hpolled⟩⟩ | ⟨new, -, hfresh, -, hnamed⟩
  · exact hknown.finished_or_over hquiet (hsame.trans h.one) h.ended
  · rw [h.one, List.map_singleton, Task.poll_of_ended h.ended] at hpolled
    exact hknown.finished_or_over hquiet hpolled h.ended
  · rw [if_neg (Ne.symm (hfresh task h.returned)), List.append_nil] at hnamed
    exact hknown.finished_or_over hquiet (hnamed.trans h.one) h.ended

theorem IsFinished.answer (h : t.IsFinished task outcome)
    (ha : t.answer? task.id e = some a) : a = .ok { task with state := outcome } := by
  rcases answer?_cases ha with ⟨-, hnone | hdrops⟩ | ⟨x, hx, rfl, -⟩
  · rw [h.one] at hnone
    cases hnone
  · exact absurd h.quiet hdrops
  · rw [h.one] at hx
    rw [List.mem_singleton.mp hx]

/-! ### When the retention is over -/

theorem IsOver.ended (h : t.IsOver task outcome) : outcome ≠ .running := by
  rintro rfl
  have hkept : Task.isExpired t.now t.registry.limits.retention { task with state := .running } =
      false := Task.isExpired_of_running rfl _ _
  rw [h.expired] at hkept
  cases hkept

theorem IsOver.after (h : t.IsOver task outcome) (he : t.Allows e) :
    (t.after e).IsOver task outcome := by
  refine ⟨h.toKnown.after he, ?_, ?_⟩
  · rcases tracked_after he task.id with
      ⟨-, hsame | hevicted | ⟨-, hnone⟩ | ⟨_, answer, -, hpolled⟩⟩ | ⟨new, -, hfresh, -, hnamed⟩
    · exact hsame ▸ h.rest
    · rw [hevicted]
      exact fun x hx => h.rest x (List.mem_filter.mp hx).1
    · rw [hnone]
      exact List.forall_mem_nil _
    · rw [hpolled]
      refine List.forall_mem_map.mpr fun x hx => ?_
      rw [h.rest x hx, Task.poll_of_ended h.ended]
    · rw [if_neg (Ne.symm (hfresh task h.returned)), List.append_nil] at hnamed
      exact hnamed ▸ h.rest
  · rw [limits_after]
    exact Task.isExpired_mono h.expired (now_le_after he)

theorem IsOver.answer (h : t.IsOver task outcome) (ha : t.answer? task.id e = some a) :
    IsMissing a := by
  rcases answer?_cases ha with ⟨hmissing, -⟩ | ⟨x, hx, -, hkept⟩
  · exact hmissing
  · rw [h.rest x hx, h.expired] at hkept
    cases hkept

/-! ## Runs -/

theorem mem_tells {x : Instant × Except TaskError Task} (h : x ∈ t.tells id e) :
    x.1 = t.now ∧ t.answer? id e = some x.2 := by
  obtain ⟨a, ha, rfl⟩ := List.mem_map.mp h
  exact ⟨rfl, Option.mem_toList.mp ha⟩

theorem IsOver.answers (h : t.IsOver task outcome) (horderly : t.Orderly events) :
    ∀ x ∈ t.answers task.id events, IsMissing x.2 ∧
      Task.isExpired x.1 t.registry.limits.retention { task with state := outcome } := by
  induction events generalizing t with
  | nil => exact List.forall_mem_nil _
  | cons e rest ih =>
    have hrest := ih (h.after horderly.1) horderly.2
    rw [limits_after] at hrest
    refine List.forall_mem_append.mpr ⟨fun x hx => ?_, hrest⟩
    obtain ⟨hnow, ha⟩ := mem_tells hx
    rw [hnow]
    exact ⟨h.answer ha, h.expired⟩

theorem IsFinished.answers (h : t.IsFinished task outcome) (horderly : t.Orderly events) :
    ∃ finished gone, t.answers task.id events = finished ++ gone ∧
      (∀ x ∈ finished, x.2 = .ok { task with state := outcome }) ∧
      ∀ x ∈ gone, IsMissing x.2 ∧
        Task.isExpired x.1 t.registry.limits.retention { task with state := outcome } := by
  induction events generalizing t with
  | nil => exact ⟨[], [], rfl, List.forall_mem_nil _, List.forall_mem_nil _⟩
  | cons e rest ih =>
    have htells : ∀ x ∈ t.tells task.id e, x.2 = .ok { task with state := outcome } :=
      fun x hx => h.answer (mem_tells hx).2
    rcases h.after horderly.1 with hfinished | hover
    · obtain ⟨finished, gone, hanswers, hfinished, hover⟩ := ih hfinished horderly.2
      rw [limits_after] at hover
      refine ⟨t.tells task.id e ++ finished, gone, ?_, ?_, hover⟩
      · rw [TaskService.answers, hanswers, List.append_assoc]
      · exact List.forall_mem_append.mpr ⟨htells, hfinished⟩
    · have hrest := hover.answers horderly.2
      rw [limits_after] at hrest
      exact ⟨t.tells task.id e, (t.after e).answers task.id rest, rfl, htells, hrest⟩

/-- What a run tells about a task, in its order: before it was submitted, while it was running, when
it had ended, and when its retention was over. -/
structure LifeTold (t : TaskService) (events : List TaskEvent) (task : Task) (outcome : TaskState)
    (before running finished gone : List (Instant × Except TaskError Task)) : Prop where
  whenUnborn : ∀ x ∈ before, IsMissing x.2
  whileRunning : ∀ x ∈ running, x.2 = .ok task
  whenFinished : ∀ x ∈ finished, x.2 = .ok { task with state := outcome }
  whenOver : ∀ x ∈ gone, IsMissing x.2 ∧
    Task.isExpired x.1 t.registry.limits.retention { task with state := outcome }
  /-- The task had ended before it was told. -/
  ended : finished ++ gone ≠ [] → outcome ≠ .running ∧
    ∃ front back, events = front ++ back ∧ t.answers task.id front = before ++ running ∧
      { task with state := outcome } ∈ (t.run front).registry.tasks

/-- An event comes first, and what it tells is told before all else. -/
theorem LifeTold.cons {before running finished gone : List (Instant × Except TaskError Task)}
    (h : (t.after e).LifeTold events task outcome before running finished gone)
    {before' running' : List (Instant × Except TaskError Task)}
    (htold : t.tells task.id e ++ (before ++ running) = before' ++ running')
    (hbefore : ∀ x ∈ before', IsMissing x.2) (hrunning : ∀ x ∈ running', x.2 = .ok task) :
    t.LifeTold (e :: events) task outcome before' running' finished gone := by
  refine ⟨hbefore, hrunning, h.whenFinished, ?_, fun hne => ?_⟩
  · rw [← limits_after t e]
    exact h.whenOver
  · obtain ⟨houtcome, front, back, rfl, hanswers, hmem⟩ := h.ended hne
    refine ⟨houtcome, e :: front, back, rfl, ?_, hmem⟩
    rw [TaskService.answers, hanswers, htold]

theorem IsRunning.answers (h : t.IsRunning task) (horderly : t.Orderly events) :
    ∃ outcome running finished gone,
      t.answers task.id events = running ++ (finished ++ gone) ∧
        t.LifeTold events task outcome [] running finished gone := by
  induction events generalizing t with
  | nil =>
    exact ⟨.running, [], [], [], rfl, List.forall_mem_nil _, List.forall_mem_nil _,
      List.forall_mem_nil _, List.forall_mem_nil _, fun h => absurd rfl h⟩
  | cons e rest ih =>
    have htells : ∀ x ∈ t.tells task.id e, x.2 = .ok task :=
      fun x hx => h.answer (mem_tells hx).2
    rcases h.after horderly.1 with hrunning | ⟨outcome, htracked, hended⟩
    · obtain ⟨outcome, running, finished, gone, hanswers, hrest⟩ := ih hrunning horderly.2
      refine ⟨outcome, t.tells task.id e ++ running, finished, gone, ?_,
        hrest.cons rfl (List.forall_mem_nil _)
          (List.forall_mem_append.mpr ⟨htells, hrest.whileRunning⟩)⟩
      rw [TaskService.answers, hanswers, List.append_assoc]
    -- With this event the task has ended; where its retention is no time at all, it is over too.
    · have hlast : t.answers task.id [e] = [] ++ t.tells task.id e := List.append_nil _
      rcases hended with hfinished | hover
      · obtain ⟨finished, gone, hanswers, htold, hover⟩ := hfinished.answers horderly.2
        rw [limits_after] at hover
        refine ⟨outcome, t.tells task.id e, finished, gone, ?_, List.forall_mem_nil _, htells,
          htold, hover, fun _ => ⟨hfinished.ended, [e], rest, rfl, hlast, htracked⟩⟩
        rw [TaskService.answers, hanswers]
      · have hrest := hover.answers horderly.2
        rw [limits_after] at hrest
        exact ⟨outcome, t.tells task.id e, [], (t.after e).answers task.id rest, rfl,
          List.forall_mem_nil _, htells, List.forall_mem_nil _, hrest,
          fun _ => ⟨hover.ended, [e], rest, rfl, hlast, htracked⟩⟩

/-- Of a task that has not been there, nothing else is told before its submission has returned. -/
theorem IsUnborn.answers (h : t.IsUnborn id) (horderly : t.Orderly events) :
    ∃ task outcome before running finished gone,
      t.answers id events = before ++ (running ++ (finished ++ gone)) ∧
        task.id = id ∧ task.state = .running ∧
        t.LifeTold events task outcome before running finished gone ∧
        (running ++ (finished ++ gone) ≠ [] → task ∈ (t.run events).returned) ∧
        ∀ front back, events = front ++ back → ∀ x ∈ (t.run front).returned, x.id = id →
          x = task ∧ before.length ≤ (t.answers id front).length := by
  induction events generalizing t with
  | nil =>
    refine ⟨⟨id, 0, "", Option.none, 0, .running⟩, .running, [], [], [], [], rfl, rfl, rfl,
      ⟨List.forall_mem_nil _, List.forall_mem_nil _, List.forall_mem_nil _, List.forall_mem_nil _,
        fun h => absurd rfl h⟩, fun h => absurd rfl h, fun front back hsplit x hx hid => ?_⟩
    obtain ⟨rfl, -⟩ := List.nil_eq_append_iff.mp hsplit
    exact absurd hid (h.unknown x hx)
  | cons e rest ih =>
    have htells : ∀ x ∈ t.tells id e, IsMissing x.2 := fun x hx => h.answer (mem_tells hx).2
    rcases h.after horderly.1 with hunborn | ⟨task, rfl, hrunning⟩
    -- The submission has not returned, so what is told now goes before all the rest.
    · obtain ⟨task, outcome, before, running, finished, gone, hanswers, rfl, hrunning, hrest,
        hreturned, hfirst⟩ := ih hunborn horderly.2
      refine ⟨task, outcome, t.tells task.id e ++ before, running, finished, gone, ?_, rfl,
        hrunning, hrest.cons (List.append_assoc _ _ _).symm
          (List.forall_mem_append.mpr ⟨htells, hrest.whenUnborn⟩) hrest.whileRunning,
        hreturned, ?_⟩
      · rw [TaskService.answers, hanswers, List.append_assoc]
      · intro front back hsplit x hx hid
        rcases List.cons_eq_append_iff.mp hsplit with ⟨rfl, -⟩ | ⟨front, rfl, hlater⟩
        · exact absurd hid (h.unknown x hx)
        · obtain ⟨hsame, hlength⟩ := hfirst front back hlater x hx hid
          refine ⟨hsame, ?_⟩
          rw [TaskService.answers, List.length_append, List.length_append]
          exact Nat.add_le_add_left hlength _
    -- The event has returned the task, and what is told from now on is no longer `before`.
    · obtain ⟨outcome, running, finished, gone, hanswers, hrest⟩ := hrunning.answers horderly.2
      refine ⟨task, outcome, t.tells task.id e, running, finished, gone, ?_, rfl, hrunning.running,
        hrest.cons rfl htells hrest.whileRunning,
        fun _ => (hrunning.toKnown.run horderly.2).returned, ?_⟩
      · rw [TaskService.answers, hanswers]
      · intro front back hsplit x hx hid
        rcases List.cons_eq_append_iff.mp hsplit with ⟨rfl, -⟩ | ⟨front, rfl, rfl⟩
        · exact absurd hid (h.unknown x hx)
        · obtain ⟨hfront, -⟩ := horderly.2.of_append
          refine ⟨(hrunning.toKnown.run hfront).only x hx hid, ?_⟩
          rw [TaskService.answers, List.length_append]
          exact Nat.le_add_right _ _

/-! ## The whole life -/

theorem isUnborn_initial (settings : StoreSettings) (limits : TaskLimits) (start : Instant)
    (id : TaskId) : (initial settings limits start).IsUnborn id :=
  ⟨rfl, List.forall_mem_nil _, List.forall_mem_nil _⟩

/-- In every run from the empty service, in which calls, the poller, the store and its faults go on
in any order, what is told about a task is that it is missing, then the running task, then the task
with its outcome, always the same, and then, for good, that it is missing.

It is missing at first only before its submission has returned, and in the end only when its
retention is over. The outcome is told only when the task has ended, and every state that is told
shows the fields of its status. -/
theorem answers_in_order (settings : StoreSettings) (limits : TaskLimits) (start : Instant)
    (horderly : (initial settings limits start).Orderly events) (id : TaskId) :
    ∃ task outcome before running finished gone,
      (initial settings limits start).answers id events =
          before ++ (running ++ (finished ++ gone)) ∧
        task.id = id ∧ task.state = .running ∧
        (∀ x ∈ before, IsMissing x.2) ∧
        (∀ x ∈ running, x.2 = .ok task) ∧
        (∀ x ∈ finished, x.2 = .ok { task with state := outcome }) ∧
        (∀ x ∈ gone, IsMissing x.2 ∧
          ∃ at_ ∈ outcome.finishedAt, at_ + 1000 * (limits.retention : Int) ≤ x.1) ∧
        (∀ front back, events = front ++ back →
          ∀ x ∈ ((initial settings limits start).run front).returned, x.id = id →
            x = task ∧
              before.length ≤ ((initial settings limits start).answers id front).length) ∧
        (running ++ (finished ++ gone) ≠ [] →
          task ∈ ((initial settings limits start).run events).returned) ∧
        (finished ++ gone ≠ [] →
          ∃ front back, events = front ++ back ∧
            (initial settings limits start).answers id front = before ++ running ∧
            { task with state := outcome } ∈
              ((initial settings limits start).run front).registry.tasks ∧
            outcome ≠ .running) ∧
        task.state.ShowsItsFields ∧ outcome.ShowsItsFields := by
  obtain ⟨task, outcome, before, running, finished, gone, hanswers, hid, hrunning, htold,
    hreturned, hfirst⟩ := (isUnborn_initial settings limits start id).answers horderly
  refine ⟨task, outcome, before, running, finished, gone, hanswers, hid, hrunning,
    htold.whenUnborn, htold.whileRunning, htold.whenFinished, fun x hx => ?_, hfirst, hreturned,
    fun hne => ?_, task.state.showsItsFields, outcome.showsItsFields⟩
  · obtain ⟨hmissing, hexpired⟩ := htold.whenOver x hx
    exact ⟨hmissing, Task.isExpired_iff.mp hexpired⟩
  · obtain ⟨hended, front, back, hsplit, hfront, htracked⟩ := htold.ended hne
    exact ⟨front, back, hsplit, hid ▸ hfront, htracked, hended⟩

/-! ### One task from its submission to its end -/

/-- The text of the name of the one task. -/
def oneText : String := "00000000-0000-0000-0000-000000000001"

/-- The status of a task is asked for before it is submitted, while it runs, when it has ended, and
when its retention is over. -/
def askedThroughout : List TaskEvent :=
  [.begins (.status oneText), .goes 0 ⟨2⟩,
    .begins (.submit Traffic.touchAll), .goes 1 ⟨1⟩, .goes 1 ⟨1⟩, .goes 1 ⟨1⟩, .goes 1 ⟨1⟩,
    .goes 1 ⟨1⟩,
    .begins (.status oneText), .goes 2 ⟨2⟩,
    .happens .dispatch, .happens (.stepJob 1), .happens (.stepJob 1),
    .happens (.clock 5), .notes ⟨1⟩, .polls 0, .polls 0,
    .begins (.status oneText), .goes 3 ⟨2⟩,
    .happens (.clock 3600005), .begins (.status oneText), .goes 4 ⟨2⟩, .goes 4 ⟨2⟩, .goes 4 ⟨2⟩]

/-- The task as its submission returns it. -/
def touching : Task := TaskRegistry.accepted 0 Traffic.oneTask 1 Traffic.touchAll.selection

/-- What the four calls are told. -/
theorem answers_askedThroughout :
    (initial {} {} 0).answers ⟨1⟩ askedThroughout =
      [(0, .error (.notFound oneText)), (0, .ok touching),
        (5, .ok { touching with state := .complete 0 5 }),
        (3600005, .error (.notFound oneText))] := rfl

theorem returned_askedThroughout : ((initial {} {} 0).run askedThroughout).returned = [touching] :=
  rfl

/-- The task is missing, runs, has ended and is over, in the one order in which that can be told. -/
theorem answers_in_order_askedThroughout :
    (initial {} {} 0).Orderly askedThroughout ∧
      (initial {} {} 0).answers ⟨1⟩ askedThroughout =
        [(0, .error (.notFound oneText)), (0, .ok touching),
          (5, .ok { touching with state := .complete 0 5 }),
          (3600005, .error (.notFound oneText))] ∧
      ∃ before running finished gone,
        (initial {} {} 0).answers ⟨1⟩ askedThroughout =
            before ++ (running ++ (finished ++ gone)) ∧
          (∀ x ∈ before, IsMissing x.2) ∧
          (∀ x ∈ running, x.2 = .ok touching) ∧
          (∀ x ∈ finished, x.2 = .ok { touching with state := .complete 0 5 }) ∧
          (∀ x ∈ gone, IsMissing x.2 ∧ 5 + 3600000 ≤ x.1) ∧
          ∃ front back, askedThroughout = front ++ back ∧
            (initial {} {} 0).answers ⟨1⟩ front = before ++ running ∧
            { touching with state := .complete 0 5 } ∈
              ((initial {} {} 0).run front).registry.tasks := by
  have horderly : (initial {} {} 0).Orderly askedThroughout := by decide
  obtain ⟨task, outcome, before, running, finished, gone, hanswers, -, -, hbefore, hrunning,
    hfinished, hover, hfirst, -, hended, -⟩ := answers_in_order {} {} 0 horderly ⟨1⟩
  obtain ⟨rfl, -⟩ := hfirst askedThroughout [] (List.append_nil _).symm touching
    (returned_askedThroughout ▸ List.mem_singleton_self _) rfl
  -- Of all that can be told, only an outcome is the third answer.
  have hthird : (5, .ok { touching with state := .complete 0 5 }) ∈ finished := by
    have hmem : (5, .ok { touching with state := .complete 0 5 }) ∈
        before ++ (running ++ (finished ++ gone)) := by
      rw [← hanswers, answers_askedThroughout]
      exact .tail _ (.tail _ (.head _))
    simp only [List.mem_append] at hmem
    rcases hmem with hmem | hmem | hmem | hmem
    · obtain ⟨text, hmissing⟩ := hbefore _ hmem
      cases hmissing
    · cases hrunning _ hmem
    · exact hmem
    · obtain ⟨⟨text, hmissing⟩, -⟩ := hover _ hmem
      cases hmissing
  obtain rfl : TaskState.complete 0 5 = outcome := by
    have houtcome := hfinished _ hthird
    injection houtcome with houtcome
    injection houtcome
  obtain ⟨front, back, hsplit, hfront, htracked, -⟩ :=
    hended (List.ne_nil_of_mem (List.mem_append_left _ hthird))
  refine ⟨horderly, answers_askedThroughout, before, running, finished, gone, hanswers, hbefore,
    hrunning, hfinished, fun x hx => ?_, front, back, hsplit, hfront, htracked⟩
  obtain ⟨hmissing, at_, hat, hexpired⟩ := hover x hx
  cases hat
  exact ⟨hmissing, hexpired⟩

end TaskService
end RecordService
