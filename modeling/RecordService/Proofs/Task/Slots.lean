import RecordService.Proofs.Except
import RecordService.Proofs.Job.Numbers
import RecordService.Proofs.Task.Steps

/-!
# The slots of the task registry

A slot is taken before the task that will hold it is tracked, and given back after the task that
held it has been dropped. In between it is in the hands of a call.

* `TaskCall.slots`: the slots in the hands of a call. `TaskCall.gives`: those that its next step
  gives back.
* `TaskCall.next_slots`: a step of a call moves slots between the call, the tasks and those that are
  free, and loses none.
* `Traffic.Accounted`: what holds of the slots, the tasks and the jobs at all times.
  `Traffic.Accounted.step`: any step keeps it.
* `TaskRegistry.submit_overloaded_iff`, `TaskRegistry.submit_error`: a submission by itself.
* `Traffic.Run.slots_accounted`: so it is after any run.
-/

namespace RecordService

namespace Store

theorem total_cons (n : Nat) (counts : List Nat) : total (n :: counts) = n + total counts := by
  rw [total, List.foldl_cons, Nat.add_comm 0 n, List.foldl_assoc, total]

theorem total_append (counts counts' : List Nat) :
    total (counts ++ counts') = total counts + total counts' := by
  induction counts with
  | nil => exact (Nat.zero_add _).symm
  | cons n rest ih => rw [List.cons_append, total_cons, total_cons, ih, Nat.add_assoc]

end Store

/-! ## One task less -/

namespace TaskRegistry

variable {r : TaskRegistry} {now : Instant} {id : TaskId} {task : Task}

/-- The tasks of a registry have different names. -/
def Distinct (r : TaskRegistry) : Prop := (r.tasks.map (·.id)).Nodup

theorem Distinct.of_sublist {r' : TaskRegistry} (h : r.Distinct)
    (hsub : r'.tasks.Sublist r.tasks) : r'.Distinct :=
  (hsub.map _).nodup h

theorem evict_length (now : Instant) (r : TaskRegistry) :
    (r.evict now).2.tasks.length + (r.evict now).1 = r.tasks.length := by
  have hle := List.length_filter_le (fun t : Task => !t.isExpired now r.limits.retention) r.tasks
  show (r.tasks.filter _).length + (r.tasks.length - (r.tasks.filter _).length) = _
  omega

/-- In a registry without double names, to drop a task that is there drops no other. -/
theorem remove_length (h : r.Distinct) (hfound : r.find? id = some task) :
    (r.remove id).tasks.length + 1 = r.tasks.length := by
  obtain ⟨hid, front, back, htasks, hfront⟩ := List.find?_eq_some_iff_append.mp hfound
  have hid : task.id = id := by simpa using hid
  have hkept : (front ++ back).filter (·.id ≠ id) = front ++ back := by
    refine List.filter_eq_self.mpr fun x hx => decide_eq_true fun hx' => ?_
    rw [Distinct, htasks, List.map_append, List.map_cons] at h
    refine (List.nodup_cons.mp (List.perm_middle.nodup_iff.mp h)).1 ?_
    rw [← List.map_append]
    exact List.mem_map.mpr ⟨x, hx, hx'.trans hid.symm⟩
  have hremoved : (r.remove id).tasks = front ++ back := by
    show r.tasks.filter (·.id ≠ id) = front ++ back
    rw [htasks, List.filter_append, List.filter_cons_of_neg (by simp [hid]), ← List.filter_append,
      hkept]
  rw [hremoved, htasks, List.length_append, List.length_append, List.length_cons, Nat.add_assoc]

theorem insert_distinct (h : r.Distinct) (hfresh : ∀ x ∈ r.tasks, x.id ≠ task.id) :
    (r.insert task).Distinct := by
  have hperm : ((r.insert task).tasks.map (·.id)).Perm (task.id :: r.tasks.map (·.id)) := by
    show ((r.tasks ++ [task]).map (·.id)).Perm _
    rw [List.map_append]
    exact List.perm_append_comm
  refine hperm.nodup_iff.mpr (List.nodup_cons.mpr ⟨fun hmem => ?_, h⟩)
  obtain ⟨x, hx, hid⟩ := List.mem_map.mp hmem
  exact hfresh x hx hid

theorem reserve_eq_ok {r' : TaskRegistry} (h : r.reserve = .ok r') :
    r' = { r with reserved := r.reserved + 1 } ∧ r.reserved < r.limits.maxTracked := by
  unfold reserve at h
  split at h
  · cases h
    exact ⟨rfl, ‹_›⟩
  · cases h

theorem reserve_eq_error {e : TaskError} (h : r.reserve = .error e) :
    (∃ reason, e = .overloaded reason) ∧ r.limits.maxTracked ≤ r.reserved := by
  unfold reserve at h
  split at h
  · cases h
  · cases h
    exact ⟨⟨_, rfl⟩, Nat.le_of_not_lt ‹_›⟩

end TaskRegistry

/-! ## One step of one call -/

namespace TaskCall

variable {c c' : TaskCall} {now : Instant} {fresh : TaskId} {r r' : TaskRegistry} {s s' : Store}

/-- Whether a submission has taken a slot, and has neither had a task tracked for it nor given it
back. -/
def holdsSlot : TaskCall → Bool
  | asking _ | refused _ | accepted _ _ => true
  | _ => false

/-- How many tasks a call has evicted whose slots are still in use. -/
def owed : TaskCall → Nat
  | swept _ gone | evicted gone => gone
  | dropped _ => 1
  | _ => 0

/-- The slots in the hands of a call. -/
def slots (c : TaskCall) : Nat := c.holdsSlot.toNat + c.owed

/-- The slots that the next step of a call gives back. -/
def gives : TaskCall → Nat
  | refused _ => 1
  | c => c.owed

/-- The task of a submission that has succeeded. -/
def task? : TaskCall → Option Task
  | submitted (.ok task) => some task
  | _ => none

/-- The job of a submission that the store has accepted. -/
def job? : TaskCall → Option Nat
  | accepted _ job => some job
  | submitted (.ok task) => some task.job
  | _ => none

theorem IsNew.slots_eq (h : c.IsNew) : c.slots = 0 := by
  cases c <;> first | rfl | cases h

theorem HasEnded.slots_eq (h : c.HasEnded) : c.slots = 0 := by
  cases c <;> first | rfl | cases h

theorem gives_le_slots (c : TaskCall) : c.gives ≤ c.slots := by
  cases c <;> simp [gives, slots, owed, holdsSlot]

theorem Goes.limits_eq (h : Goes now fresh r s c c' r' s') : r'.limits = r.limits := by
  cases h with
  | takes h =>
    obtain ⟨rfl, -⟩ := TaskRegistry.reserve_eq_ok h
    rfl
  | _ => rfl

/-- A slot is taken only where there is one. -/
theorem Goes.bounded (h : Goes now fresh r s c c' r' s')
    (hle : r.reserved ≤ r.limits.maxTracked) : r'.reserved ≤ r.limits.maxTracked := by
  cases h with
  | takes h =>
    obtain ⟨rfl, hlt⟩ := TaskRegistry.reserve_eq_ok h
    exact hlt
  | frees | givesBack | forgets | ends => exact Nat.le_trans (Nat.sub_le _ _) hle
  | _ => exact hle

/-- What a step gives back is no longer in use, and no other slot is given back. -/
theorem Goes.gives (h : Goes now fresh r s c c' r' s') :
    r'.reserved = r.reserved - c.gives ∨ r'.reserved = r.reserved + 1 := by
  cases h with
  | takes h =>
    obtain ⟨rfl, -⟩ := TaskRegistry.reserve_eq_ok h
    exact .inr rfl
  | rests h => cases c <;> first | exact .inl rfl | cases h
  | _ => exact .inl rfl

/-- A step moves slots between the call, the tasks and those that are free, and loses none. -/
theorem Goes.slots (h : Goes now fresh r s c c' r' s') (hdistinct : r.Distinct)
    (hgives : c.gives ≤ r.reserved) :
    r'.reserved + (r.tasks.length + c.slots) = r.reserved + (r'.tasks.length + c'.slots) := by
  have hevict := r.evict_length now
  have hreserved : (r.evict now).2.reserved = r.reserved := rfl
  cases h with
  | evicts | sweeps =>
    simp only [TaskCall.slots, holdsSlot, owed, Bool.toNat_false, Nat.zero_add, Nat.add_zero]
    omega
  | frees | givesBack | forgets | ends =>
    simp only [TaskCall.gives, owed] at hgives
    simp only [TaskRegistry.release, TaskCall.slots, holdsSlot, owed, Bool.toNat_false,
      Bool.toNat_true]
    omega
  | takes h =>
    obtain ⟨rfl, -⟩ := TaskRegistry.reserve_eq_ok h
    simp only [TaskCall.slots, holdsSlot, owed, Bool.toNat_false, Bool.toNat_true]
    omega
  | tracks =>
    simp only [TaskRegistry.insert, TaskCall.slots, holdsSlot, owed, Bool.toNat_false,
      Bool.toNat_true, List.length_append, List.length_singleton]
  | drops h =>
    have hlength := TaskRegistry.remove_length hdistinct h
    simp only [TaskRegistry.remove, TaskCall.slots, holdsSlot, owed, Bool.toNat_false] at hlength ⊢
    omega
  | _ => rfl

/-- A task that is tracked after a step was tracked before, or is that of the call. -/
theorem Goes.mem_tasks (h : Goes now fresh r s c c' r' s') {task : Task} (hmem : task ∈ r'.tasks) :
    task ∈ r.tasks ∨ c'.task? = some task := by
  cases h with
  | takes h =>
    obtain ⟨rfl, -⟩ := TaskRegistry.reserve_eq_ok h
    exact .inl hmem
  | evicts | sweeps | drops => exact .inl (List.mem_filter.mp hmem).1
  | tracks =>
    rcases List.mem_append.mp hmem with hmem | hmem
    · exact .inl hmem
    · exact .inr (List.mem_singleton.mp hmem ▸ rfl)
  | _ => exact .inl hmem

/-- Tasks keep having different names, if a new one gets a name that no other has. -/
theorem Goes.distinct (h : Goes now fresh r s c c' r' s') (hdistinct : r.Distinct)
    (hfresh : ∀ task ∈ r.tasks, task.id ≠ fresh) : r'.Distinct := by
  cases h with
  | takes h =>
    obtain ⟨rfl, -⟩ := TaskRegistry.reserve_eq_ok h
    exact hdistinct
  | evicts | sweeps | drops => exact hdistinct.of_sublist List.filter_sublist
  | tracks htask => exact TaskRegistry.insert_distinct hdistinct (htask ▸ hfresh)
  | _ => exact hdistinct

/-- A job that the store knows after a step was known to it before, or is that of the call. -/
theorem Goes.mem_jobs (h : Goes now fresh r s c c' r' s') {n : Nat} (hmem : n ∈ s'.jobNumbers) :
    n ∈ s.jobNumbers ∨ c'.job? = some n := by
  cases h with
  | refusal h | acceptance h =>
    exact (Store.mem_jobNumbers_startJob h hmem).imp_right fun heq => by cases heq <;> rfl
  | _ => exact .inl hmem

/-- A submission keeps its task and its job. -/
theorem Goes.keeps (h : Goes now fresh r s c c' r' s') :
    (∀ task, c.task? = some task → c'.task? = some task) ∧
      ∀ n, c.job? = some n → c'.job? = some n := by
  cases h with
  | tracks htask => exact ⟨nofun, fun n hn => by cases hn; rw [htask]; rfl⟩
  | rests => exact ⟨fun _ h => h, fun _ h => h⟩
  | _ => exact ⟨nofun, nofun⟩

end TaskCall

/-! ## Any step -/

namespace Traffic

variable {t t' : Traffic}

/-- Each slot in use is that of a task, or in the hands of a call; no more are in use than there
are; and each task and each job is that of a submission that has not failed. -/
structure Accounted (t : Traffic) : Prop where
  distinct : t.registry.Distinct
  balance : t.registry.reserved = t.registry.tasks.length + Store.total (t.calls.map TaskCall.slots)
  bounded : t.registry.reserved ≤ t.registry.limits.maxTracked
  tasks : ∀ task ∈ t.registry.tasks,
    ∃ c ∈ t.calls, ∃ task', c.task? = some task' ∧ task'.id = task.id ∧ task'.job = task.job
  jobs : ∀ n ∈ t.store.jobNumbers, ∃ c ∈ t.calls, c.job? = some n

/-- No call gives back more than is in use. -/
theorem Accounted.gives (h : t.Accounted) : ∀ c ∈ t.calls, c.gives ≤ t.registry.reserved := by
  intro c hc
  have hsum : c.slots ≤ Store.total (t.calls.map TaskCall.slots) := by
    obtain ⟨front, back, hcalls⟩ := List.append_of_mem hc
    simp only [hcalls, List.map_append, List.map_cons, Store.total_append, Store.total_cons]
    omega
  have hle := c.gives_le_slots
  have hbalance := h.balance
  omega

/-- The poller keeps the names and the jobs of all tasks. -/
theorem mem_pollOne {r : TaskRegistry} {now : Instant} {id : TaskId}
    {answer : Except StoreError JobState} {task : Task}
    (h : task ∈ (r.pollOne now id answer).tasks) :
    ∃ task' ∈ r.tasks, task'.id = task.id ∧ task'.job = task.job := by
  obtain ⟨task', hmem, rfl⟩ := List.mem_map.mp h
  refine ⟨task', hmem, ?_⟩
  split
  · unfold Task.poll
    split <;> exact ⟨rfl, rfl⟩
  · exact ⟨rfl, rfl⟩

theorem ids_pollOne (r : TaskRegistry) (now : Instant) (id : TaskId)
    (answer : Except StoreError JobState) :
    (r.pollOne now id answer).tasks.map (·.id) = r.tasks.map (·.id) := by
  have hsame : ∀ task : Task,
      (if task.id = id then task.poll now fun _ => answer else task).id = task.id := by
    intro task
    split
    · unfold Task.poll
      split <;> rfl
    · rfl
  simp only [TaskRegistry.pollOne, List.map_map, Function.comp_def, hsame]

theorem Accounted.step (h : t.Accounted) (hstep : Step t t') : t'.Accounted := by
  cases hstep with
  | @begins c hnew =>
    have hkept : ∀ {P : TaskCall → Prop}, (∃ c ∈ t.calls, P c) → ∃ c' ∈ t.calls ++ [c], P c' :=
      fun ⟨c', hc', hP⟩ => ⟨c', List.mem_append_left _ hc', hP⟩
    refine ⟨h.distinct, ?_, h.bounded, fun x hx => hkept (h.tasks x hx),
      fun n hn => hkept (h.jobs n hn)⟩
    rw [List.map_append, Store.total_append, List.map_singleton, Store.total_cons, hnew.slots_eq]
    exact h.balance
  | @goes front back c fresh hcalls hfresh =>
    have hnext := c.next_goes t.now fresh t.registry t.store
    generalize c.next t.now fresh t.registry t.store = p at hnext
    obtain ⟨c', r', s'⟩ := p
    have hgoes : TaskCall.Goes t.now fresh t.registry t.store c c' r' s' := hnext
    have hmem : c ∈ t.calls := hcalls ▸ List.mem_append_right _ List.mem_cons_self
    have hself : c' ∈ front ++ c' :: back := List.mem_append_right _ List.mem_cons_self
    -- What belonged to a call still does: another call is as before, and this one has kept it.
    have hkept : ∀ {P : TaskCall → Prop}, (P c → P c') → (∃ c ∈ t.calls, P c) →
        ∃ c'' ∈ front ++ c' :: back, P c'' := by
      rintro P hP ⟨c'', hc'', hPc⟩
      rw [hcalls] at hc''
      rcases List.mem_append.mp hc'' with hfront | hback
      · exact ⟨c'', List.mem_append_left _ hfront, hPc⟩
      · rcases List.mem_cons.mp hback with rfl | hback
        · exact ⟨c', hself, hP hPc⟩
        · exact ⟨c'', List.mem_append_right _ (List.mem_cons_of_mem _ hback), hPc⟩
    have hbounded : r'.reserved ≤ r'.limits.maxTracked :=
      hgoes.limits_eq.symm ▸ hgoes.bounded h.bounded
    obtain ⟨hkeptTask, hkeptJob⟩ := hgoes.keeps
    refine ⟨hgoes.distinct h.distinct hfresh, ?_, hbounded, fun x hx => ?_, fun n hn => ?_⟩
    · have hbalance := h.balance
      have hslots := hgoes.slots h.distinct (h.gives c hmem)
      rw [hcalls] at hbalance
      simp only [List.map_append, List.map_cons, Store.total_append, Store.total_cons] at hbalance ⊢
      omega
    · rcases hgoes.mem_tasks hx with hx | hown
      · exact hkept (fun ⟨y, hy, hid⟩ => ⟨y, hkeptTask y hy, hid⟩) (h.tasks x hx)
      · exact ⟨c', hself, x, hown, rfl, rfl⟩
    · rcases hgoes.mem_jobs hn with hn | hown
      · exact hkept (hkeptJob n) (h.jobs n hn)
      · exact ⟨c', hself, hown⟩
  | polled id answer =>
    have hids := ids_pollOne t.registry t.now id answer
    refine ⟨?_, ?_, h.bounded, fun x hx => ?_, h.jobs⟩
    · rw [TaskRegistry.Distinct, hids]
      exact h.distinct
    · have hlength := congrArg List.length hids
      simp only [List.length_map] at hlength
      rw [hlength]
      exact h.balance
    · obtain ⟨y, hy, hid, hjob⟩ := mem_pollOne hx
      obtain ⟨c, hc, z, hz, hidz, hjobz⟩ := h.tasks y hy
      exact ⟨c, hc, z, hz, hidz.trans hid, hjobz.trans hjob⟩
  | happens he =>
    exact ⟨h.distinct, h.balance, h.bounded, h.tasks,
      fun n hn => h.jobs n (Moment.mem_jobNumbers_after he hn)⟩

/-! ## Any run -/

/-- Before the first call. -/
def initial (settings : StoreSettings) (limits : TaskLimits) (now : Instant) : Traffic :=
  { store := .empty settings, now, registry := { limits }, calls := [] }

variable {settings : StoreSettings} {limits : TaskLimits} {now : Instant}

theorem initial_accounted : (initial settings limits now).Accounted where
  distinct := List.nodup_nil
  balance := rfl
  bounded := Nat.zero_le _
  tasks := nofun
  jobs := nofun

theorem Run.accounted (h : Run (initial settings limits now) t) : t.Accounted := by
  induction h with
  | start => exact initial_accounted
  | next _ hstep ih => exact ih.step hstep

theorem Run.limits_eq (h : Run (initial settings limits now) t) : t.registry.limits = limits := by
  induction h with
  | start => rfl
  | next _ hstep ih =>
    cases hstep with
    | @goes front back c fresh _ _ =>
      exact (c.next_goes _ fresh _ _).limits_eq.trans ih
    | _ => exact ih

/-- The slots in the hands of all calls, by the reason for which they are. -/
theorem total_slots (calls : List TaskCall) :
    Store.total (calls.map TaskCall.slots) =
      calls.countP TaskCall.holdsSlot + Store.total (calls.map TaskCall.owed) := by
  induction calls with
  | nil => rfl
  | cons c rest ih =>
    rw [List.map_cons, Store.total_cons, ih, List.countP_cons, List.map_cons, Store.total_cons,
      TaskCall.slots]
    cases c.holdsSlot
    · simp only [Bool.toNat_false, Bool.false_eq_true, if_false]
      omega
    · simp only [Bool.toNat_true, if_true]
      omega

theorem total_slots_of_ended {calls : List TaskCall} (h : ∀ c ∈ calls, c.HasEnded) :
    Store.total (calls.map TaskCall.slots) = 0 := by
  induction calls with
  | nil => rfl
  | cons c rest ih =>
    obtain ⟨hc, hrest⟩ := List.forall_mem_cons.mp h
    rw [List.map_cons, Store.total_cons, ih hrest, hc.slots_eq]

/-- Where all calls have been answered, the slots in use are those of the tasks. -/
theorem Accounted.reserved_of_ended (h : t.Accounted) (hended : ∀ c ∈ t.calls, c.HasEnded) :
    t.registry.reserved = t.registry.tasks.length := by
  rw [h.balance, total_slots_of_ended hended, Nat.add_zero]

end Traffic

/-! ## A submission by itself -/

namespace TaskRegistry

variable {r : TaskRegistry} {now : Instant} {fresh : TaskId} {selection : Selection}
  {ops : List Operation} {s : Store}

/-- What a submission comes to that has a slot. -/
theorem hand_cases (now : Instant) (fresh : TaskId) (selection : Selection) (ops : List Operation)
    (r : TaskRegistry) (s : Store) :
    (∃ e s', r.hand now fresh selection ops s = (.error (.rejected e), r.release 1, s') ∧
        ∀ n ∈ s'.jobNumbers, n ∈ s.jobNumbers) ∨
      ∃ task s', r.hand now fresh selection ops s = (.ok task, r.insert task, s') := by
  unfold hand
  rcases hstart : s.startJob now ⟨selection, ops⟩ with ⟨e | job, s'⟩
  · refine .inl ⟨e, s', rfl, fun n hn => ?_⟩
    exact (Store.mem_jobNumbers_startJob hstart hn).resolve_right nofun
  · exact .inr ⟨_, s', rfl⟩

/-- Of a registry whose slots in use are those of its tasks, a sweep leaves the tasks that have not
expired, and their slots. -/
theorem sweep_reserved (now : Instant) (h : r.reserved = r.tasks.length) :
    (r.sweep now).2.reserved = r.tasks.countP (!·.isExpired now r.limits.retention) ∧
      (r.sweep now).2.tasks = r.tasks.filter (!·.isExpired now r.limits.retention) := by
  refine ⟨?_, rfl⟩
  let p (t : Task) : Bool := !t.isExpired now r.limits.retention
  have hle : r.tasks.countP p ≤ r.tasks.length := List.countP_le_length
  have hcount : r.tasks.countP p = (r.tasks.filter p).length := List.countP_eq_length_filter
  show r.reserved - (r.tasks.length - (r.tasks.filter p).length) = r.tasks.countP p
  omega

/-- A submission is turned away for want of a slot if and only if as many tasks that have not
expired are tracked as there may be. -/
theorem submit_overloaded_iff (h : r.reserved = r.tasks.length)
    (hle : r.reserved ≤ r.limits.maxTracked) (hops : checkOperations ops = .ok ()) :
    (∃ reason, (r.submit now fresh selection ops s).1 = .error (.overloaded reason)) ↔
      r.tasks.countP (!·.isExpired now r.limits.retention) = r.limits.maxTracked := by
  obtain ⟨hreserved, -⟩ := sweep_reserved now h
  have hcount : r.tasks.countP (!·.isExpired now r.limits.retention) ≤ r.tasks.length :=
    List.countP_le_length
  have hlimits : (r.sweep now).2.limits = r.limits := rfl
  simp only [submit, hops]
  cases hr : (r.sweep now).2.reserve with
  | error e =>
    obtain ⟨⟨reason, rfl⟩, hfull⟩ := reserve_eq_error hr
    rw [hreserved, hlimits] at hfull
    exact iff_of_true ⟨reason, rfl⟩ (by omega)
  | ok r' =>
    obtain ⟨-, hlt⟩ := reserve_eq_ok hr
    rw [hreserved, hlimits] at hlt
    refine iff_of_false ?_ (by omega)
    simp only []
    rcases hand_cases now fresh selection ops r' s with ⟨e, s', hhand, -⟩ | ⟨task, s', hhand⟩
    · rw [hhand]
      rintro ⟨reason, h⟩
      cases h
    · rw [hhand]
      rintro ⟨reason, h⟩
      cases h

/-- A submission that fails leaves no task, no slot and no job behind. -/
theorem submit_error (h : r.reserved = r.tasks.length) {e : TaskError}
    (he : (r.submit now fresh selection ops s).1 = .error e) :
    (r.submit now fresh selection ops s).2.1.tasks.Sublist r.tasks ∧
      (r.submit now fresh selection ops s).2.1.reserved =
        (r.submit now fresh selection ops s).2.1.tasks.length ∧
      ∀ n ∈ (r.submit now fresh selection ops s).2.2.jobNumbers, n ∈ s.jobNumbers := by
  obtain ⟨hreserved, htasks⟩ := sweep_reserved now h
  have hswept : (r.sweep now).2.reserved = (r.sweep now).2.tasks.length := by
    rw [hreserved, htasks, List.countP_eq_length_filter]
  have hsub : (r.sweep now).2.tasks.Sublist r.tasks := htasks ▸ List.filter_sublist
  simp only [submit] at he ⊢
  cases hops : checkOperations ops with
  | error e => exact ⟨List.Sublist.refl _, h, fun _ hn => hn⟩
  | ok _ =>
    simp only [hops] at he ⊢
    cases hr : (r.sweep now).2.reserve with
    | error e => exact ⟨hsub, hswept, fun _ hn => hn⟩
    | ok r' =>
      obtain ⟨rfl, -⟩ := reserve_eq_ok hr
      simp only [hr] at he ⊢
      rcases hand_cases now fresh selection ops
          { (r.sweep now).2 with reserved := (r.sweep now).2.reserved + 1 } s with
        ⟨e, s', hhand, hjobs⟩ | ⟨task, s', hhand⟩
      · rw [hhand]
        exact ⟨hsub, hswept, hjobs⟩
      · rw [hhand] at he
        cases he

end TaskRegistry

/-! ## Any run -/

/-- After any number of steps of any calls, polls and events of the store, the slots in use are
those of the tracked tasks, of the submissions that have taken one and not yet had their task
tracked or given it back, and of the evicted tasks whose slots have not been given back. There are
never more than may be, and no step gives back more than are in use. Every tracked task and every
job of the store is that of a submission that has not failed. Where no call is under way, a
submission with operations that a job can run is turned away for want of a slot if and only if all
slots are held by tasks that have not expired, and one that fails leaves nothing behind. -/
theorem Traffic.Run.slots_accounted {settings : StoreSettings} {limits : TaskLimits}
    {now : Instant} {t : Traffic} (h : Run (initial settings limits now) t) :
    t.registry.reserved =
        t.registry.tasks.length + t.calls.countP TaskCall.holdsSlot +
          Store.total (t.calls.map TaskCall.owed) ∧
      t.registry.reserved ≤ limits.maxTracked ∧
      t.registry.tasks.length ≤ limits.maxTracked ∧
      (∀ c ∈ t.calls, c.gives ≤ t.registry.reserved ∧ ∀ now fresh,
        let after := (c.next now fresh t.registry t.store).2.1
        after.reserved = t.registry.reserved - c.gives ∨
          after.reserved = t.registry.reserved + 1) ∧
      (∀ task ∈ t.registry.tasks, ∃ c ∈ t.calls, ∃ task', c.task? = some task' ∧
        task'.id = task.id ∧ task'.job = task.job) ∧
      (∀ n ∈ t.store.jobNumbers, ∃ c ∈ t.calls, c.job? = some n) ∧
      ((∀ c ∈ t.calls, c.HasEnded) → ∀ (now : Instant) (fresh : TaskId) (selection : Selection)
        (ops : List Operation),
        let after := t.registry.submit now fresh selection ops t.store
        (TaskRegistry.checkOperations ops = .ok () →
          ((∃ reason, after.1 = .error (.overloaded reason)) ↔
            t.registry.tasks.countP (!·.isExpired now limits.retention) = limits.maxTracked)) ∧
          ∀ e, after.1 = .error e →
            after.2.1.tasks.Sublist t.registry.tasks ∧
              after.2.1.reserved = after.2.1.tasks.length ∧
              ∀ n ∈ after.2.2.jobNumbers, n ∈ t.store.jobNumbers) := by
  have haccounted := h.accounted
  have hlimits := h.limits_eq
  have hbalance := haccounted.balance
  have hbounded : t.registry.reserved ≤ limits.maxTracked := hlimits ▸ haccounted.bounded
  rw [total_slots, ← Nat.add_assoc] at hbalance
  refine ⟨hbalance, hbounded, by omega, fun c hc => ⟨haccounted.gives c hc, fun now fresh =>
    (c.next_goes now fresh t.registry t.store).gives⟩, haccounted.tasks, haccounted.jobs, ?_⟩
  intro hended now fresh selection ops
  have hreserved := haccounted.reserved_of_ended hended
  refine ⟨fun hops => ?_, fun e he => TaskRegistry.submit_error hreserved he⟩
  rw [← hlimits]
  exact TaskRegistry.submit_overloaded_iff hreserved haccounted.bounded hops

namespace Traffic

/-! ### Two submissions for one slot -/

/-- A job that touches all records. -/
def touchAll : JobRequest := ⟨⟨"test", none, none⟩, [.touch]⟩

/-- The name of the one task. -/
def oneTask : TaskId := ⟨1⟩

/-- One submission has got the slot, and its task is tracked; another one has come too late. -/
def oneSlot : Traffic :=
  let task := TaskRegistry.accepted 0 oneTask 1 touchAll.selection
  { store :=
      { Store.empty {} with
        jobs := [(1, ⟨.inProgress, none⟩)]
        nextJob := 2
        pool := { queue := [⟨1, touchAll⟩], workers := 2 } }
    now := 0
    registry := { limits := { maxTracked := 1 }, tasks := [task], reserved := 1 }
    calls := [.submitted (.ok task), .submitted (.error (.overloaded "1 tasks tracked"))] }

theorem oneSlot_run : Run (initial {} { maxTracked := 1 } 0) oneSlot := by
  have hrun : Run (initial {} { maxTracked := 1 } 0)
      { initial {} { maxTracked := 1 } 0 with calls := [.submit touchAll, .submit touchAll] } :=
    (Run.start.next (.begins _ (c := .submit touchAll) trivial)).next
      (.begins _ (c := .submit touchAll) trivial)
  -- The first submission takes the slot.
  have hrun := hrun.next (@Step.goes _ [] _ _ oneTask rfl nofun)
  have hrun := hrun.next (@Step.goes _ [] _ _ oneTask rfl nofun)
  have hrun := hrun.next (@Step.goes _ [] _ _ oneTask rfl nofun)
  -- The second one finds none.
  have hrun := hrun.next (@Step.goes _ [_] _ _ oneTask rfl nofun)
  have hrun := hrun.next (@Step.goes _ [_] _ _ oneTask rfl nofun)
  have hrun := hrun.next (@Step.goes _ [_] _ _ oneTask rfl nofun)
  -- The first one has its job accepted and its task tracked.
  have hrun := hrun.next (@Step.goes _ [] _ _ oneTask rfl nofun)
  have hrun := hrun.next (@Step.goes _ [] _ _ oneTask rfl nofun)
  exact hrun

/-- The slot is in use, a third submission is turned away, and it leaves the one task. -/
theorem Run.slots_accounted_oneSlot :
    oneSlot.registry.reserved = 1 ∧
      let after := oneSlot.registry.submit 0 ⟨2⟩ touchAll.selection touchAll.ops oneSlot.store
      (∃ reason, after.1 = .error (.overloaded reason)) ∧ after.2.1.reserved = 1 := by
  obtain ⟨hbalance, -, -, -, -, -, hquiet⟩ := Run.slots_accounted oneSlot_run
  have hended : ∀ c ∈ oneSlot.calls, c.HasEnded :=
    List.forall_mem_cons.mpr ⟨trivial, List.forall_mem_singleton.mpr trivial⟩
  obtain ⟨hoverloaded, herror⟩ := hquiet hended 0 ⟨2⟩ touchAll.selection touchAll.ops
  obtain ⟨reason, hreason⟩ := (hoverloaded rfl).mpr rfl
  obtain ⟨-, hreserved, -⟩ := herror _ hreason
  exact ⟨hbalance, ⟨reason, hreason⟩, hreserved⟩

end Traffic

end RecordService
