import RecordService.Proofs.Task.Service

/-!
# Tracked tasks by their names

* `TaskRegistry.named`: the tasks of a name, and what each step of the registry does to them.
* `TaskCall.Goes.named_cases`, `TaskService.tracked_after`: all that a step of a call, and an event,
  can do to the tasks of a name.
* `TaskService.Quiet`: no call is about to drop the task of a name.
* `TaskCall.Goes.told_cases`, `TaskService.answer?_cases`: what is told about a task.
-/

namespace RecordService

/-- The answer that there is no such task. -/
def IsMissing (a : Except TaskError Task) : Prop := ∃ text, a = .error (.notFound text)

/-! ## One task -/

namespace Task

variable {task : Task} {now now' : Instant} {retention : Nat}

theorem isExpired_iff : task.isExpired now retention ↔
    ∃ at_ ∈ task.state.finishedAt, at_ + 1000 * (retention : Int) ≤ now := by
  unfold isExpired
  cases task.state.finishedAt with
  | none => simp
  | some at_ => simp

theorem isExpired_mono (h : task.isExpired now retention) (hle : now ≤ now') :
    task.isExpired now' retention := by
  obtain ⟨at_, hat, hover⟩ := isExpired_iff.mp h
  exact isExpired_iff.mpr ⟨at_, hat, Int.le_trans hover hle⟩

theorem isExpired_of_running (h : task.state = .running) (now : Instant) (retention : Nat) :
    task.isExpired now retention = false := by
  rw [isExpired, h]
  rfl

theorem poll_of_running (h : task.state = .running) (now : Instant)
    (jobStatus : Nat → Except StoreError JobState) :
    task.poll now jobStatus = { task with state := stateAfter now (jobStatus task.job) } := by
  rw [poll, h]

theorem poll_of_ended (h : task.state ≠ .running) (now : Instant)
    (jobStatus : Nat → Except StoreError JobState) : task.poll now jobStatus = task := by
  unfold poll
  split
  · rename_i hrunning
    exact absurd hrunning h
  · rfl

/-- A look at its job leaves a task whose retention is over. -/
theorem isExpired_poll {jobStatus : Nat → Except StoreError JobState}
    (h : task.isExpired now retention) : (task.poll now' jobStatus).isExpired now retention := by
  rwa [poll_of_ended]
  intro hrunning
  rw [isExpired_of_running hrunning] at h
  cases h

theorem poll_id (now : Instant) (jobStatus : Nat → Except StoreError JobState) :
    (task.poll now jobStatus).id = task.id := by
  unfold poll
  split <;> rfl

theorem poll_job (now : Instant) (jobStatus : Nat → Except StoreError JobState) :
    (task.poll now jobStatus).job = task.job := by
  unfold poll
  split <;> rfl

end Task

/-! ## The tasks of a name -/

namespace TaskRegistry

variable {r : TaskRegistry} {id : TaskId}

/-- The tracked tasks of a name. -/
def named (id : TaskId) (r : TaskRegistry) : List Task := r.tasks.filter (·.id == id)

theorem find?_eq_head? (id : TaskId) (r : TaskRegistry) : r.find? id = (r.named id).head? :=
  List.head?_filter.symm

theorem id_of_mem_named {task : Task} (h : task ∈ r.named id) : task.id = id := by
  simpa using (List.mem_filter.mp h).2

theorem named_evict (now : Instant) (id : TaskId) (r : TaskRegistry) :
    (r.evict now).2.named id = (r.named id).filter (!·.isExpired now r.limits.retention) := by
  rw [named, evict, named, List.filter_filter, List.filter_filter]
  exact List.filter_congr fun _ _ => Bool.and_comm _ _

theorem named_insert (task : Task) (id : TaskId) (r : TaskRegistry) :
    (r.insert task).named id = r.named id ++ if task.id = id then [task] else [] := by
  by_cases hid : task.id = id <;> simp [named, insert, hid]

theorem named_remove (id' id : TaskId) (r : TaskRegistry) :
    (r.remove id').named id = if id' = id then [] else r.named id := by
  split
  · rename_i hid
    refine List.filter_eq_nil_iff.mpr fun task htask => ?_
    have hne := of_decide_eq_true (List.mem_filter.mp htask).2
    simp [← hid, hne]
  · rename_i hid
    rw [named, remove, List.filter_filter, named]
    refine List.filter_congr fun task _ => ?_
    by_cases h : task.id = id
    · simp [h, Ne.symm hid]
    · simp [h]

theorem named_pollOne (now : Instant) (id' id : TaskId) (answer : Except StoreError JobState)
    (r : TaskRegistry) :
    (r.pollOne now id' answer).named id =
      if id' = id then (r.named id).map (·.poll now fun _ => answer) else r.named id := by
  have hkeep : ((·.id == id) ∘ fun task : Task =>
      if task.id = id' then task.poll now fun _ => answer else task) = (·.id == id) := by
    funext task
    by_cases h : task.id = id'
    · simp [h, Task.poll_id]
    · simp [h]
  rw [named, pollOne, List.filter_map, hkeep]
  split
  · rename_i hid
    refine List.map_congr_left fun task htask => if_pos ?_
    rw [hid]
    exact id_of_mem_named htask
  · rename_i hid
    have hsame : ∀ task ∈ r.named id,
        (if task.id = id' then task.poll now fun _ => answer else task) = task := by
      intro task htask
      exact if_neg fun h => hid (h.symm.trans (id_of_mem_named htask))
    exact (List.map_congr_left hsame).trans (List.map_id' _)

end TaskRegistry

/-! ## One step of one call -/

namespace TaskCall

variable {c c' : TaskCall} {now : Instant} {fresh id : TaskId} {r r' : TaskRegistry} {s s' : Store}

/-- A call has found a task to have expired, and will drop it or has dropped it. -/
def Drops (id : TaskId) : TaskCall → Prop
  | expired text id' _ => TaskId.ofText? text = some id ∨ id' = id
  | dropped text => TaskId.ofText? text = some id
  | _ => False

theorem IsNew.task?_eq (h : c.IsNew) : c.task? = none := by
  cases c with
  | submit | status | sweep => rfl
  | _ => exact h.elim

theorem IsNew.not_drops (h : c.IsNew) : ¬c.Drops id := by
  cases c with
  | submit | status | sweep => exact fun hd => hd
  | _ => exact h.elim

theorem HasEnded.asked?_eq (h : c.HasEnded) : c.asked? = none := by
  cases c with
  | submitted | told | done => rfl
  | _ => exact h.elim

/-- A step of a call tracks a task under the fresh name and returns it, or it returns no task; and
then it leaves the tasks of a name, or evicts those that have expired, or drops those of a task that
it has found to have. -/
theorem Goes.named_cases (h : Goes now fresh r s c c' r' s') (id : TaskId) :
    (c'.task? = c.task? ∧
        (r'.named id = r.named id ∨
          r'.named id = (r.named id).filter (!·.isExpired now r.limits.retention) ∨
          (c.Drops id ∧ r'.named id = []))) ∨
      ∃ task, c.task? = none ∧ c' = submitted (.ok task) ∧ task.id = fresh ∧
        task.state = .running ∧
        r'.named id = r.named id ++ if task.id = id then [task] else [] := by
  cases h with
  | evicts | sweeps => exact .inl ⟨rfl, .inr (.inl (r.named_evict now id))⟩
  | takes h =>
    obtain ⟨rfl, -⟩ := TaskRegistry.reserve_eq_ok h
    exact .inl ⟨rfl, .inl rfl⟩
  | tracks htask =>
    subst htask
    exact .inr ⟨_, rfl, rfl, rfl, rfl, r.named_insert _ id⟩
  | @drops text id' =>
    refine .inl ⟨rfl, ?_⟩
    rw [TaskRegistry.named_remove]
    split
    · rename_i hid
      exact .inr (.inr ⟨.inr hid, rfl⟩)
    · exact .inl rfl
  | _ => exact .inl ⟨rfl, .inl rfl⟩

/-- Only a call that finds a task to have expired begins to drop it. -/
theorem Goes.dropping_cases (h : Goes now fresh r s c c' r' s') (hd : c'.Drops id) :
    c.Drops id ∨ ∃ task ∈ r.named id, task.isExpired now r.limits.retention := by
  cases h with
  | @findsExpired text task hfound hexpired =>
    obtain ⟨id', hid', hfind⟩ := Option.bind_eq_some_iff.mp hfound
    rw [TaskRegistry.find?_eq_head?] at hfind
    have hmem : task ∈ r.named id' := List.mem_of_head? hfind
    have hid : id' = id := by
      rcases hd with htext | htask
      · exact Option.some.inj (hid'.symm.trans htext)
      · exact (TaskRegistry.id_of_mem_named hmem).symm.trans htask
    exact .inr ⟨task, hid ▸ hmem, hexpired⟩
  | drops => exact .inl (.inl hd)
  | rests => exact .inl hd
  | _ => exact hd.elim

/-- A call is told that there is no such task, and there is none or the call was about to drop it;
or it is told the task, which has not expired. -/
theorem Goes.told_cases {a : Except TaskError Task} (h : Goes now fresh r s c c' r' s')
    (hasked : c.asked? = some id) (htold : c'.told? = some a) :
    (IsMissing a ∧ (r.named id = [] ∨ c.Drops id)) ∨
      ∃ task ∈ r.named id, a = .ok task ∧ task.isExpired now r.limits.retention = false := by
  cases h with
  | @missing text hnone =>
    obtain rfl := Option.some.inj htold
    have hid : TaskId.ofText? text = some id := hasked
    rw [hid, Option.bind_some, TaskRegistry.find?_eq_head?, List.head?_eq_none_iff] at hnone
    exact .inl ⟨⟨text, rfl⟩, .inl hnone⟩
  | @finds text task hfound hexpired =>
    obtain rfl := Option.some.inj htold
    have hid : TaskId.ofText? text = some id := hasked
    rw [hid, Option.bind_some, TaskRegistry.find?_eq_head?] at hfound
    exact .inr ⟨task, List.mem_of_head? hfound, rfl, hexpired⟩
  | @tooLate text id' since =>
    obtain rfl := Option.some.inj htold
    exact .inl ⟨⟨text, rfl⟩, .inr (.inl hasked)⟩
  | @forgets text =>
    obtain rfl := Option.some.inj htold
    exact .inl ⟨⟨text, rfl⟩, .inr hasked⟩
  | rests hended =>
    rw [hended.asked?_eq] at hasked
    cases hasked
  | _ => cases htold

end TaskCall

/-! ## One event -/

namespace TaskService

variable {t : TaskService} {e : TaskEvent} {id : TaskId} {a : Except TaskError Task}

/-- No call has found the task of a name to have expired. -/
def Quiet (t : TaskService) (id : TaskId) : Prop := ∀ c ∈ t.calls, ¬c.Drops id

theorem limits_after (t : TaskService) (e : TaskEvent) :
    (t.after e).registry.limits = t.registry.limits := by
  rcases t.after_cases e with ⟨c, -, h⟩ | ⟨i, fresh, c, front, back, -, -, -, h⟩ |
    ⟨id, task, -, -, -, h⟩ | ⟨i, look, -, -, h⟩ | ⟨e', -, h⟩ | ⟨h, -, -⟩
  · rw [h]
  · rw [h]
    exact (c.next_goes t.now fresh t.registry t.store).limits_eq
  · rw [h]
  · rw [h]
    cases look <;> rfl
  · rw [h]
  · rw [h]

theorem now_le_after (he : t.Allows e) : t.now ≤ (t.after e).now := by
  rcases t.after_cases e with ⟨c, -, h⟩ | ⟨i, fresh, c, front, back, -, -, -, h⟩ |
    ⟨id, task, -, -, -, h⟩ | ⟨i, look, -, -, h⟩ | ⟨e', rfl, h⟩ | ⟨h, -, -⟩
  · exact Int.le_of_eq (congrArg (·.now) h).symm
  · exact Int.le_of_eq (congrArg (·.now) h).symm
  · exact Int.le_of_eq (congrArg (·.now) h).symm
  · exact Int.le_of_eq (congrArg (·.now) h).symm
  · cases e' with
    | clock now => exact he
    | startJob request => exact he.elim
    | _ => exact Int.le_refl _
  · exact Int.le_of_eq (congrArg (·.now) h).symm

/-- All that an event can do to the tasks of a name, and to those that submissions have returned: a
new task is tracked and returned under a name that no task has had, or none is, and then the tasks
are left, evicted, dropped, or moved by an answer that the poller has heard. -/
theorem tracked_after (he : t.Allows e) (id : TaskId) :
    ((t.after e).returned = t.returned ∧
        ((t.after e).registry.named id = t.registry.named id ∨
          (t.after e).registry.named id =
            (t.registry.named id).filter (!·.isExpired t.now t.registry.limits.retention) ∨
          (¬t.Quiet id ∧ (t.after e).registry.named id = []) ∨
          ∃ job answer, .heard id job answer ∈ t.looks ∧ (t.after e).registry.named id =
            (t.registry.named id).map (·.poll t.now fun _ => answer))) ∨
      ∃ task, task.state = .running ∧ (∀ x ∈ t.returned, x.id ≠ task.id) ∧
        (∀ x, x ∈ (t.after e).returned ↔ x ∈ t.returned ∨ x = task) ∧
        (t.after e).registry.named id =
          t.registry.named id ++ if task.id = id then [task] else [] := by
  rcases t.after_cases e with ⟨c, rfl, h⟩ | ⟨i, fresh, c, front, back, rfl, -, hcalls, h⟩ |
    ⟨_, task, -, -, -, h⟩ | ⟨i, look, -, hlook, h⟩ | ⟨e', -, h⟩ | ⟨h, -, -⟩
  · rw [h]
    refine .inl ⟨?_, .inl rfl⟩
    rw [returned, List.filterMap_append, List.filterMap_cons_none he.task?_eq]
    exact List.append_nil _
  · rw [h]
    rcases (c.next_goes t.now fresh t.registry t.store).named_cases id with
      ⟨htask, hnamed⟩ | ⟨task, hnone, hcall, hid, hrunning, hnamed⟩
    · refine .inl ⟨?_, ?_⟩
      · simp only [returned, hcalls, List.filterMap_append, List.filterMap_cons, htask]
      · rcases hnamed with hsame | hevicted | ⟨hdrops, hnone⟩
        · exact .inl hsame
        · exact .inr (.inl hevicted)
        · refine .inr (.inr (.inl ⟨fun hquiet => hquiet c ?_ hdrops, hnone⟩))
          rw [hcalls]
          exact List.mem_append_right _ List.mem_cons_self
    · refine .inr ⟨task, hrunning, fun x hx => hid ▸ he x hx, fun x => ?_, hnamed⟩
      have hsome : TaskCall.task? (.submitted (.ok task)) = some task := rfl
      simp only [returned, hcalls, List.filterMap_append, hcall, List.filterMap_cons_some hsome,
        List.filterMap_cons_none hnone, List.mem_append, List.mem_cons, or_assoc]
      exact or_congr_right or_comm
  · rw [h]
    exact .inl ⟨rfl, .inl rfl⟩
  · rw [h]
    refine .inl ⟨rfl, ?_⟩
    cases look with
    | heard id' job answer =>
      simp only [PollerLook.next, TaskRegistry.named_pollOne]
      split
      · rename_i hid
        exact .inr (.inr (.inr ⟨job, answer, hid ▸ hlook, rfl⟩))
      · exact .inl rfl
    | noted | done => exact .inl rfl
  · rw [h]
    exact .inl ⟨rfl, .inl rfl⟩
  · rw [h]
    exact .inl ⟨rfl, .inl rfl⟩

/-- Calls begin to drop the task of a name only where one has expired. -/
theorem Quiet.after (h : t.Quiet id) (he : t.Allows e)
    (hlive : ∀ task ∈ t.registry.named id,
      task.isExpired t.now t.registry.limits.retention = false) : (t.after e).Quiet id := by
  intro c hc
  rcases t.after_cases e with
    ⟨c', rfl, hafter⟩ | ⟨i, fresh, c', front, back, -, -, hcalls, hafter⟩ |
    ⟨_, task, -, -, -, hafter⟩ | ⟨i, look, -, -, hafter⟩ | ⟨e', -, hafter⟩ | ⟨hafter, -, -⟩
  · rw [hafter] at hc
    rcases List.mem_append.mp hc with hc | hc
    · exact h c hc
    · obtain rfl := List.mem_singleton.mp hc
      exact he.not_drops
  · rw [hafter] at hc
    rw [Quiet, hcalls] at h
    obtain ⟨hfront, hback⟩ := List.forall_mem_append.mp h
    obtain ⟨hc', hback⟩ := List.forall_mem_cons.mp hback
    rcases List.mem_append.mp hc with hc | hc
    · exact hfront c hc
    · rcases List.mem_cons.mp hc with rfl | hc
      · intro hdrops
        rcases (c'.next_goes t.now fresh t.registry t.store).dropping_cases hdrops with
          hdrops | ⟨task, htask, hexpired⟩
        · exact hc' hdrops
        · rw [hlive task htask] at hexpired
          cases hexpired
      · exact hback c hc
  · exact h c (by rwa [hafter] at hc)
  · exact h c (by rwa [hafter] at hc)
  · exact h c (by rwa [hafter] at hc)
  · exact h c (by rwa [hafter] at hc)

/-- A call is told that there is no such task, and there is none or some call is dropping it; or it
is told the task, which has not expired. -/
theorem answer?_cases (ha : t.answer? id e = some a) :
    (IsMissing a ∧ (t.registry.named id = [] ∨ ¬t.Quiet id)) ∨
      ∃ task ∈ t.registry.named id, a = .ok task ∧
        task.isExpired t.now t.registry.limits.retention = false := by
  cases e with
  | goes i fresh =>
    cases hc : t.calls[i]? with
    | none =>
      rw [answer?, hc] at ha
      cases ha
    | some c =>
      rw [answer?, hc] at ha
      simp only [] at ha
      split at ha
      · rename_i hasked
        rcases (c.next_goes t.now fresh t.registry t.store).told_cases hasked ha with
          ⟨hmissing, hnone | hdrops⟩ | htask
        · exact .inl ⟨hmissing, .inl hnone⟩
        · exact .inl ⟨hmissing, .inr fun hquiet => hquiet c (List.mem_of_getElem? hc) hdrops⟩
        · exact .inr htask
      · cases ha
  | begins | notes | polls | happens => cases ha

end TaskService
end RecordService
