import Mathlib.Data.List.Nodup
import RecordService.Proofs.Store.Purge
import RecordService.Proofs.Task.Tracking

/-!
# Tasks whose retention is over

A finished task whose retention is over stays where it is until it is asked for or a submission
sweeps it away. Nothing that the registry answers depends on it in the meantime: to sweep first, and
to do so afterwards, comes to the same.

* `TaskRegistry.swept`: the registry without the tasks whose retention is over, and without their
  slots.
* `TaskRegistry.status_swept`, `submit_swept`: a call to a swept registry is answered as ever, and
  leaves the swept registry.
* `TaskRegistry.swept_status`, `submit_refused`: a call that fails leaves the registry as it was, up
  to a sweep.
* `TaskRegistry.poll_swept`: a look at all jobs goes the same in a swept registry, up to a sweep.
-/

namespace RecordService.TaskRegistry

variable {r r' : TaskRegistry} {now later : Instant} {id fresh : TaskId} {task : Task}

/-- The tasks whose retention is not over. -/
def kept (now : Instant) (r : TaskRegistry) : List Task :=
  r.tasks.filter (!·.isExpired now r.limits.retention)

/-- The registry after a sweep. -/
def swept (now : Instant) (r : TaskRegistry) : TaskRegistry := (r.sweep now).2

theorem swept_eq (now : Instant) (r : TaskRegistry) :
    r.swept now = { r with
      tasks := r.kept now
      reserved := r.reserved - (r.tasks.length - (r.kept now).length) } := rfl

@[simp]
theorem swept_limits (now : Instant) (r : TaskRegistry) : (r.swept now).limits = r.limits := rfl

theorem kept_length_le (now : Instant) (r : TaskRegistry) : (r.kept now).length ≤ r.tasks.length :=
  List.length_filter_le _ _

/-- Registries are the same after a sweep if they keep the same tasks and have the same slots in use
besides those that it gives back. -/
theorem swept_congr (hlimits : r.limits = r'.limits) (hkept : r.kept now = r'.kept now)
    (hreserved : r.reserved - (r.tasks.length - (r.kept now).length) =
      r'.reserved - (r'.tasks.length - (r'.kept now).length)) : r.swept now = r'.swept now := by
  rw [swept_eq, swept_eq, hreserved, hkept, hlimits]

/-- A task whose retention is over at some time is not kept later on. -/
theorem kept_swept (h : now ≤ later) (r : TaskRegistry) :
    (r.swept now).kept later = r.kept later := by
  show (r.tasks.filter _).filter _ = _
  rw [List.filter_filter, kept]
  refine List.filter_congr fun task _ => ?_
  show (!task.isExpired later r.limits.retention && !task.isExpired now r.limits.retention) = _
  cases hnow : task.isExpired now r.limits.retention with
  | false => simp
  | true => simp [Task.isExpired_mono hnow h]

theorem swept_swept (h : now ≤ later) (r : TaskRegistry) :
    (r.swept now).swept later = r.swept later := by
  refine swept_congr rfl (kept_swept h r) ?_
  have hkept := kept_swept h r
  have hsub : (r.kept later).length ≤ (r.kept now).length := hkept ▸ kept_length_le later _
  have hle := kept_length_le now r
  rw [hkept]
  show r.reserved - (r.tasks.length - (r.kept now).length) - ((r.kept now).length - _) = _
  omega

theorem Distinct.swept (h : r.Distinct) (now : Instant) : (r.swept now).Distinct :=
  h.of_sublist List.filter_sublist

/-- A registry of tasks whose retention is not over has nothing to sweep. -/
theorem swept_eq_self (h : ∀ task ∈ r.tasks, task.isExpired now r.limits.retention = false) :
    r.swept now = r := by
  have hkept : r.kept now = r.tasks :=
    List.filter_eq_self.mpr fun task htask => by simp [h task htask]
  rw [swept_eq, hkept, Nat.sub_self, Nat.sub_zero]

theorem kept_live : ∀ task ∈ r.kept now, task.isExpired now r.limits.retention = false :=
  fun _ htask => by simpa using (List.mem_filter.mp htask).2

/-! ## The status of a task -/

/-- In a registry without double names, a task that is there is found by its name. -/
theorem Distinct.find?_eq_some_iff (h : r.Distinct) :
    r.find? id = some task ↔ task ∈ r.tasks ∧ task.id = id := by
  constructor
  · intro hfound
    exact ⟨List.mem_of_find?_eq_some hfound, by simpa using List.find?_some hfound⟩
  · rintro ⟨hmem, hid⟩
    cases hfound : r.find? id with
    | none => exact absurd hid (by simpa using List.find?_eq_none.mp hfound task hmem)
    | some task' =>
      have hid' : task'.id = id := by simpa using List.find?_some hfound
      exact congrArg some
        (List.inj_on_of_nodup_map h (List.mem_of_find?_eq_some hfound) hmem (hid'.trans hid.symm))

/-- After a sweep a task is found if it was, and its retention is not over. -/
theorem find?_swept (h : r.Distinct) (now : Instant) (id : TaskId) :
    (r.swept now).find? id = (r.find? id).filter (!·.isExpired now r.limits.retention) := by
  have hmem : ∀ task, task ∈ (r.swept now).tasks ↔
      task ∈ r.tasks ∧ (!task.isExpired now r.limits.retention) = true := fun _ => List.mem_filter
  refine Option.ext fun task => ?_
  rw [(h.swept now).find?_eq_some_iff, Option.filter_eq_some_iff, h.find?_eq_some_iff, hmem]
  exact and_right_comm

/-- To drop a task whose retention is over, and its slot, is a part of a sweep. -/
theorem swept_remove (h : r.Distinct) (hfound : r.find? id = some task)
    (hexpired : task.isExpired now r.limits.retention) :
    ((r.remove id).release 1).swept now = r.swept now := by
  have hkept : ((r.remove id).release 1).kept now = r.kept now := by
    show (r.tasks.filter _).filter _ = _
    rw [List.filter_filter, kept]
    refine List.filter_congr fun x hx => ?_
    by_cases hid : x.id = id
    · have hsame : x = task :=
        Option.some.inj ((h.find?_eq_some_iff.mpr ⟨hx, hid⟩).symm.trans hfound)
      subst hsame
      simp [hid, hexpired]
    · simp [hid]
      rfl
  have hlength := remove_length h hfound
  have hle : (r.kept now).length ≤ (r.remove id).tasks.length := hkept ▸ kept_length_le now _
  refine swept_congr rfl hkept ?_
  rw [hkept]
  show r.reserved - 1 - ((r.remove id).tasks.length - (r.kept now).length) = _
  omega

/-- The status of a task does not depend on tasks whose retention is over. -/
theorem status_swept (h : r.Distinct) (now : Instant) (text : String) :
    (r.swept now).status now text =
      ((r.status now text).1, (r.status now text).2.swept now) := by
  unfold status
  cases TaskId.ofText? text with
  | none => rfl
  | some id =>
    simp only [Option.bind_some, find?_swept h]
    cases hfound : r.find? id with
    | none => rfl
    | some task =>
      have hid : task.id = id := (h.find?_eq_some_iff.mp hfound).2
      cases hexpired : task.isExpired now r.limits.retention with
      | true =>
        simp only [Option.filter_some, hexpired, Bool.not_true, Bool.false_eq_true, if_false,
          if_true, hid, swept_remove h hfound hexpired]
      | false =>
        simp only [Option.filter_some, hexpired, Bool.not_false, Bool.false_eq_true, if_false,
          if_true, swept_limits]

/-- Who asks for the status of a task changes nothing but what a sweep does. -/
theorem swept_status (h : r.Distinct) (now : Instant) (text : String) :
    (r.status now text).2.swept now = r.swept now := by
  unfold status
  split
  · rfl
  · rename_i task hfound
    obtain ⟨id, -, hfound⟩ := Option.bind_eq_some_iff.mp hfound
    have hid : task.id = id := (h.find?_eq_some_iff.mp hfound).2
    split
    · rename_i hexpired
      rw [hid]
      exact swept_remove h hfound hexpired
    · rfl

/-- Who asks for the status of a task adds none. -/
theorem tasks_status (r : TaskRegistry) (now : Instant) (text : String) :
    (r.status now text).2.tasks.Sublist r.tasks := by
  unfold status
  split
  · exact List.Sublist.refl _
  · split
    · exact List.filter_sublist
    · exact List.Sublist.refl _

/-! ## A submission -/

section

variable {s : Store} {selection : Selection} {ops : List Operation}

/-- A registry that has nothing to sweep hands a job on in the same way to a purged store, and has
nothing to sweep afterwards. -/
theorem hand_purge (hlive : ∀ task ∈ r.tasks, task.isExpired now r.limits.retention = false) :
    r.hand now fresh selection ops (s.purge now) =
      ((r.hand now fresh selection ops s).1, (r.hand now fresh selection ops s).2.1.swept now,
        (r.hand now fresh selection ops s).2.2.purge now) := by
  unfold hand
  rw [Store.startJob_purge]
  rcases s.startJob now ⟨selection, ops⟩ with ⟨e | job, s'⟩
  · have hrelease : (r.release 1).swept now = r.release 1 := swept_eq_self hlive
    simp only [hrelease]
  · have hinsert : (r.insert (accepted now fresh job selection)).swept now =
        r.insert (accepted now fresh job selection) := by
      refine swept_eq_self (List.forall_mem_append.mpr ⟨hlive, List.forall_mem_singleton.mpr ?_⟩)
      exact Task.isExpired_of_running rfl now _
    simp only [hinsert]

/-- A submission sweeps before all else. -/
theorem submit_eq (hops : checkOperations ops = .ok ()) :
    r.submit now fresh selection ops s =
      match (r.swept now).reserve with
      | .error e => (.error e, r.swept now, s)
      | .ok r => r.hand now fresh selection ops s := by
  rw [submit, hops]
  rfl

/-- A submission to a swept registry, before a purged store, is answered as ever, and leaves the
swept registry and the purged store. -/
theorem submit_swept (r : TaskRegistry) (now : Instant) (fresh : TaskId) (selection : Selection)
    (ops : List Operation) (s : Store) :
    (r.swept now).submit now fresh selection ops (s.purge now) =
      ((r.submit now fresh selection ops s).1, (r.submit now fresh selection ops s).2.1.swept now,
        (r.submit now fresh selection ops s).2.2.purge now) := by
  have hagain : (r.swept now).swept now = r.swept now := swept_swept (Int.le_refl now) r
  cases hops : checkOperations ops with
  | error e =>
    simp only [submit, hops]
  | ok =>
    rw [submit_eq hops, submit_eq hops, hagain]
    cases hr : (r.swept now).reserve with
    | error e => simp only [hagain]
    | ok r' =>
      obtain ⟨rfl, -⟩ := reserve_eq_ok hr
      exact hand_purge kept_live

/-- A job that is not handed on leaves the store as it was, or finds that it has no room. -/
theorem hand_error {e : TaskError} (he : (r.hand now fresh selection ops s).1 = .error e) :
    (r.hand now fresh selection ops s).2.1 = r.release 1 ∧
      ((r.hand now fresh selection ops s).2.2 = s ∨
        ∃ reason, e = .rejected (.unavailable reason)) := by
  unfold hand at he ⊢
  rcases s.startJob_inv now ⟨selection, ops⟩ with ⟨e', h⟩ | ⟨reason, h⟩ | h
  · rw [h]
    exact ⟨rfl, .inl rfl⟩
  · rw [h] at he ⊢
    exact ⟨rfl, .inr ⟨reason, (Except.error.inj he).symm⟩⟩
  · rw [h] at he
    cases he

/-- A submission that fails changes nothing in the registry but what a sweep does. It leaves the
store as it was, or finds that it has no room. -/
theorem submit_refused {e : TaskError}
    (he : (r.submit now fresh selection ops s).1 = .error e) :
    (r.submit now fresh selection ops s).2.1.swept now = r.swept now ∧
      ((r.submit now fresh selection ops s).2.2 = s ∨
        ∃ reason, e = .rejected (.unavailable reason)) := by
  have hagain : (r.swept now).swept now = r.swept now := swept_swept (Int.le_refl now) r
  cases hops : checkOperations ops with
  | error e' => simp only [submit, hops, true_or, and_self]
  | ok =>
    rw [submit_eq hops] at he ⊢
    cases hr : (r.swept now).reserve with
    | error e' => exact ⟨hagain, .inl rfl⟩
    | ok r' =>
      obtain ⟨rfl, -⟩ := reserve_eq_ok hr
      rw [hr] at he
      obtain ⟨hregistry, hstore⟩ := hand_error he
      refine ⟨?_, hstore⟩
      simp only [hregistry]
      exact hagain

/-- All that a submission can do to the tasks. -/
theorem tasks_submit (r : TaskRegistry) (now : Instant) (fresh : TaskId) (selection : Selection)
    (ops : List Operation) (s : Store) :
    (r.submit now fresh selection ops s).2.1.tasks.Sublist r.tasks ∨
      ∃ task, task.id = fresh ∧
        (r.submit now fresh selection ops s).2.1.tasks = r.kept now ++ [task] := by
  cases hops : checkOperations ops with
  | error e => exact .inl (by simp only [submit, hops, List.Sublist.refl])
  | ok =>
    rw [submit_eq hops]
    cases hr : (r.swept now).reserve with
    | error e => exact .inl List.filter_sublist
    | ok r' =>
      obtain ⟨rfl, -⟩ := reserve_eq_ok hr
      unfold hand
      simp only []
      rcases s.startJob now ⟨selection, ops⟩ with ⟨e | job, s'⟩
      · exact .inl List.filter_sublist
      · exact .inr ⟨accepted now fresh job selection, rfl, rfl⟩

/-- A submission has the store asked to accept the job, or leaves it as it is. -/
theorem submit_store (r : TaskRegistry) (now : Instant) (fresh : TaskId) (selection : Selection)
    (ops : List Operation) (s : Store) :
    (r.submit now fresh selection ops s).2.2 = s ∨
      (r.submit now fresh selection ops s).2.2 = (s.startJob now ⟨selection, ops⟩).2 := by
  cases hops : checkOperations ops with
  | error e => exact .inl (by simp only [submit, hops])
  | ok =>
    rw [submit_eq hops]
    cases (r.swept now).reserve with
    | error e => exact .inl rfl
    | ok r' =>
      refine .inr ?_
      unfold hand
      rcases s.startJob now ⟨selection, ops⟩ with ⟨e | job, s'⟩ <;> rfl

/-- A submission leaves all records. -/
theorem submit_spaces (r : TaskRegistry) (now : Instant) (fresh : TaskId) (selection : Selection)
    (ops : List Operation) (s : Store) :
    (r.submit now fresh selection ops s).2.2.spaces = s.spaces := by
  rcases r.submit_store now fresh selection ops s with hs | hs
  · rw [hs]
  · rw [hs, Store.startJob_spaces]

end

/-! ## A look at all jobs -/

theorem ids_poll (r : TaskRegistry) (now : Instant)
    (jobStatus : Nat → Except StoreError JobState) :
    (r.poll now jobStatus).tasks.map (·.id) = r.tasks.map (·.id) := by
  simp only [poll, List.map_map, Function.comp_def, Task.poll_id]

/-- Tasks can be changed before or after a sweep, if a task whose retention is over stays one: what
is swept before is else swept afterwards. -/
theorem swept_map {f : Task → Task} (hf : ∀ task, task.isExpired now r.limits.retention →
    (f task).isExpired now r.limits.retention) :
    { r.swept now with tasks := (r.swept now).tasks.map f }.swept now =
      { r with tasks := r.tasks.map f }.swept now := by
  have hkept : { r.swept now with tasks := (r.swept now).tasks.map f }.kept now =
      { r with tasks := r.tasks.map f }.kept now := by
    show ((r.tasks.filter _).map _).filter _ = (r.tasks.map _).filter _
    rw [List.filter_map, List.filter_map, List.filter_filter]
    refine congrArg _ (List.filter_congr fun task _ => ?_)
    cases hnow : task.isExpired now r.limits.retention with
    | false => simp
    | true => simp [hf task hnow]
  have hlength : (r.tasks.map f).length = r.tasks.length := List.length_map _
  have hlength' : ((r.swept now).tasks.map f).length = (r.kept now).length := List.length_map _
  have hle := kept_length_le now { r.swept now with tasks := (r.swept now).tasks.map f }
  have hle' := kept_length_le now r
  refine swept_congr rfl hkept ?_
  rw [hkept, hlength'] at hle
  rw [hkept, hlength, hlength']
  show r.reserved - (r.tasks.length - (r.kept now).length) - _ = r.reserved - _
  omega

/-- A look at the jobs goes the same without the tasks whose retention is over, up to a sweep: where
there is no retention it ends with that of the tasks whose jobs have ended. -/
theorem poll_swept (r : TaskRegistry) (now : Instant)
    (jobStatus : Nat → Except StoreError JobState) :
    ((r.swept now).poll now jobStatus).swept now = (r.poll now jobStatus).swept now :=
  swept_map fun _ => Task.isExpired_poll

/-- So does what the poller makes of an answer about the job of one task. -/
theorem pollOne_swept (r : TaskRegistry) (now : Instant) (id : TaskId)
    (answer : Except StoreError JobState) :
    ((r.swept now).pollOne now id answer).swept now = (r.pollOne now id answer).swept now := by
  refine swept_map fun task hexpired => ?_
  split
  · exact Task.isExpired_poll hexpired
  · exact hexpired

end RecordService.TaskRegistry
