import RecordService.Gateway.Basic
import RecordService.Proofs.Task.Sweep

/-!
# Calls that leave no trace

Records that have expired and tasks whose retention is over stay where they are for a while, and
some calls remove them on the way, also such that fail. No call can tell whether that has happened.
Up to this, a call that is refused for certain has not taken place.

* `Gateway.tidy`: the gateway without expired records and without tasks whose retention is over.
* `Gateway.WellFormed`: the invariant. `Gateway.Tracks`: the names of the tracked tasks.
* `Gateway.Traceless`: a call has the same answer from a tidy gateway, leaves a tidy gateway tidy,
  and one that is refused does no more than to tidy up.
* `Gateway.traceless_write`: the writes. `Gateway.traceless_putRecord` and its like: the calls.
-/

namespace RecordService

/-- A refusal that leaves no doubt about the call: the client is at fault, there is no such thing,
or there is a conflict. -/
def IsRefusal {α : Type} (a : Except GatewayError α) : Prop := ∃ e, a = .error e ∧ e.status < 500

theorem GatewayError.not_inDoubt {e : StoreError} (h : (GatewayError.ofStore e).status < 500) :
    e.inDoubt = false := by
  cases e with
  | timeout doubt => exact absurd h (by cases doubt <;> decide)
  | _ => rfl

namespace Gateway

variable {g : Gateway} {now later : Instant} {fresh id : TaskId} {α β : Type}

/-! ## Tidying up -/

/-- The gateway without records that have expired and without tasks whose retention is over. -/
def tidy (now : Instant) (g : Gateway) : Gateway :=
  { g with store := g.store.purge now, tasks := g.tasks.swept now }

theorem tidy_tidy (h : now ≤ later) (g : Gateway) : (g.tidy now).tidy later = g.tidy later := by
  simp only [tidy, Store.purge_purge h, TaskRegistry.swept_swept h]

/-- The records stand in order, and the tasks have different names. -/
structure WellFormed (g : Gateway) : Prop where
  store : g.store.WellFormed
  tasks : g.tasks.Distinct

theorem ofSettings_wellFormed (store : StoreSettings) (scanLimits : ScanLimits)
    (tasks : TaskLimits) : (ofSettings store scanLimits tasks).WellFormed where
  store := Store.empty_wellFormed store
  tasks := List.nodup_nil

/-- There is a task of a name. -/
def Tracks (g : Gateway) (id : TaskId) : Prop := ∃ task ∈ g.tasks.tasks, task.id = id

theorem Tracks.of_sublist {g' : Gateway} (h : g.Tracks id)
    (hsub : g.tasks.tasks.Sublist g'.tasks.tasks) : g'.Tracks id := by
  obtain ⟨task, htask, hid⟩ := h
  exact ⟨task, hsub.subset htask, hid⟩

/-! ## Calls -/

/-- What is left behind makes no difference to a call, and the call makes none if it is refused,
except that it may remove some of that. A task that it tracks has the fresh name. -/
structure Traceless (now : Instant) (fresh : TaskId) (Refused : α → Prop)
    (call : Gateway → α × Gateway) : Prop where
  tidy : ∀ {g : Gateway}, g.WellFormed →
    call (g.tidy now) = ((call g).1, (call g).2.tidy now)
  refused : ∀ {g : Gateway}, g.WellFormed → Refused (call g).1 → (call g).2.tidy now = g.tidy now
  wellFormed : ∀ {g : Gateway}, g.WellFormed → ¬g.Tracks fresh → (call g).2.WellFormed
  tracks : ∀ {g : Gateway} {id : TaskId}, (call g).2.Tracks id → g.Tracks id ∨ id = fresh

/-- A call that changes nothing, and is answered in the same way by a tidy gateway. -/
theorem traceless_read {Refused : α → Prop} {answer : Gateway → α}
    (h : ∀ {g : Gateway}, g.WellFormed → answer (g.tidy now) = answer g) :
    Traceless now fresh Refused fun g => (answer g, g) where
  tidy hg := by rw [h hg]
  refused _ _ := rfl
  wellFormed hg _ := hg
  tracks := .inl

/-- A call whose answer is told in another way. -/
theorem Traceless.map {Refused : α → Prop} {Refused' : β → Prop} {call : Gateway → α × Gateway}
    {f : α → β} (h : Traceless now fresh Refused call) (hf : ∀ a, Refused' (f a) → Refused a) :
    Traceless now fresh Refused' fun g => (f (call g).1, (call g).2) where
  tidy hg := by simp only [h.tidy hg]
  refused hg hrefused := h.refused hg (hf _ hrefused)
  wellFormed := h.wellFormed
  tracks := h.tracks

/-! ### Reads -/

theorem getRecord_tidy (hg : g.WellFormed) (address : Address) (filter : Option Expression)
    (bins : Option (List String)) :
    (g.tidy now).getRecord now address filter bins = g.getRecord now address filter bins := by
  rw [getRecord, getRecord, ← Store.get_purge hg.store]
  rfl

theorem recordExists_tidy (hg : g.WellFormed) (address : Address) (filter : Option Expression) :
    (g.tidy now).recordExists now address filter = g.recordExists now address filter := by
  rw [recordExists, recordExists, ← Store.exists_purge hg.store]
  rfl

theorem scan_tidy (g : Gateway) (now : Instant) (selection : Selection)
    (bins : Option (List String)) (size : Option Nat) (token : Option String) :
    (g.tidy now).scan now selection bins size token = g.scan now selection bins size token := by
  simp only [scan, ScanLimits.scan, tidy, Store.scan_purge]

theorem info_tidy (g : Gateway) (now : Instant) (node : Option String) (commands : List String) :
    (g.tidy now).info now node commands = g.info now node commands := by
  simp only [info, tidy, Store.info_purge]

/-! ### Writes -/

/-- A call that is one to the store. -/
theorem traceless_ofStoreCall {Refused : Except GatewayError α → Prop}
    {call : Store → Except StoreError α × Store}
    (hpurge : ∀ {s : Store}, s.WellFormed →
      call (s.purge now) = ((call s).1, (call s).2.purge now))
    (hwf : ∀ {s : Store}, s.WellFormed → (call s).2.WellFormed)
    (hrefused : ∀ {s : Store}, s.WellFormed → Refused ((call s).1.mapError .ofStore) →
      (call s).2.purge now = s.purge now) :
    Traceless now fresh Refused fun g => g.ofStoreCall (call g.store) where
  tidy hg := by simp only [ofStoreCall, Gateway.tidy, hpurge hg.store]
  refused hg h := by simp only [ofStoreCall, Gateway.tidy, hrefused hg.store h]
  wellFormed hg _ := ⟨hwf hg.store, hg.tasks⟩
  tracks := .inl

section

variable {address : Address} {decide : Option StoredRecord → Except StoreError (α × Change)}

theorem write_of_isRefusal {s : Store}
    (h : IsRefusal ((s.write now address decide).1.mapError .ofStore)) :
    (s.write now address decide).2 = s := by
  obtain ⟨e, he, hstatus⟩ := h
  cases hwrite : (s.write now address decide).1 with
  | ok a =>
    rw [hwrite] at he
    cases he
  | error e' =>
    rw [hwrite] at he
    obtain rfl := Except.error.inj he
    exact Store.write_unchanged hwrite (GatewayError.not_inDoubt hstatus)

/-- A write that is refused has not been applied. -/
theorem traceless_write
    (hlive : ∀ live a c, (∀ r ∈ live, r.isLive now) → decide live = .ok (a, c) → c.IsLive now)
    (hwf : ∀ live a c, (∀ r ∈ live, Ordered.Sorted r.bins) → decide live = .ok (a, c) →
      c.WellFormed) :
    Traceless now fresh IsRefusal fun g => g.ofStoreCall (g.store.write now address decide) :=
  traceless_ofStoreCall (fun hs => Store.write_purge hs hlive)
    (fun hs => Store.write_wellFormed hs hwf) fun _ h => by rw [write_of_isRefusal h]

end

theorem traceless_putRecord (address : Address) (bins : Bins) (options : WriteOptions) :
    Traceless now fresh IsRefusal fun g => g.putRecord now address bins options := by
  unfold putRecord
  by_cases hbins : bins.isEmpty
  · simp only [if_pos hbins]
    exact traceless_read fun _ => rfl
  · simp only [if_neg hbins]
    exact traceless_write (fun _ _ _ => Cell.put_isLive) fun _ _ _ => Cell.put_wellFormed

theorem traceless_operate (address : Address) (ops : List Operation) (p : WriteParameters) :
    Traceless now fresh IsRefusal fun g => g.operate now address ops p := by
  unfold operate Store.operate
  by_cases hops : ops.isEmpty
  · simp only [if_pos hops]
    exact traceless_read fun _ => rfl
  · simp only [if_neg hops]
    exact traceless_write (fun _ _ _ => Cell.operate_isLive) fun _ _ _ => Cell.operate_wellFormed

/-- A deletion that finds nothing may have removed a record that had expired. -/
theorem traceless_deleteRecord (address : Address) (generation : Option UInt32) :
    Traceless now fresh IsRefusal fun g => g.deleteRecord now address generation := by
  have hdelete : Traceless now fresh (fun a => IsRefusal a ∨ a = .ok false) fun g =>
      g.ofStoreCall (g.store.delete now address ⟨.update, generation, none⟩) := by
    refine traceless_ofStoreCall (fun hs => Store.write_purge hs fun _ _ _ _ => Cell.delete_isLive)
      (fun hs => Store.delete_wellFormed hs now address _) fun hs h => ?_
    rcases h with h | h
    · rw [Store.delete, write_of_isRefusal h]
    · exact Store.delete_missing hs (mapError_eq_ok_iff.mp h)
  refine hdelete.map (f := fun a => a.bind fun found =>
    if found then .ok () else .error .recordNotFound) ?_
  rintro a ⟨e, he, hstatus⟩
  cases a with
  | error e =>
    cases he
    exact .inl ⟨e, rfl, hstatus⟩
  | ok found =>
    cases found with
    | true => cases he
    | false => exact .inr rfl

/-! ### Tasks -/

theorem traceless_submit (selection : Selection) (ops : List Operation) :
    Traceless now fresh IsRefusal fun g => g.submit now fresh selection ops where
  tidy := by
    intro g _
    simp only [submit, Gateway.tidy, TaskRegistry.submit_swept]
  refused := by
    rintro g hg ⟨e, he, hstatus⟩
    cases hsubmit : (g.tasks.submit now fresh selection ops g.store).1 with
    | ok task =>
      simp only [submit, hsubmit] at he
      cases he
    | error e' =>
      simp only [submit, hsubmit] at he
      obtain rfl := Except.error.inj he
      obtain ⟨htasks, hstore | ⟨reason, rfl⟩⟩ := TaskRegistry.submit_refused hsubmit
      · simp only [submit, Gateway.tidy, htasks, hstore]
      · exact absurd (show 503 < 500 from hstatus) (by decide)
  wellFormed := by
    intro g hg hfresh
    have hstore := g.tasks.submit_spaces now fresh selection ops g.store
    refine ⟨hg.store.of_spaces hstore, ?_⟩
    rcases g.tasks.tasks_submit now fresh selection ops g.store with hsub | ⟨task, rfl, htasks⟩
    · exact hg.tasks.of_sublist hsub
    · have hnew : ∀ x ∈ (g.tasks.swept now).tasks, x.id ≠ task.id :=
        fun x hx hid => hfresh ⟨x, (List.mem_filter.mp hx).1, hid⟩
      have hinsert := TaskRegistry.insert_distinct (hg.tasks.swept now) hnew
      exact hinsert.of_sublist (htasks ▸ List.Sublist.refl _)
  tracks := by
    rintro g id ⟨task, htask, rfl⟩
    rcases g.tasks.tasks_submit now fresh selection ops g.store with hsub | ⟨new, rfl, htasks⟩
    · exact .inl ⟨task, hsub.subset htask, rfl⟩
    · have hmem : task ∈ g.tasks.kept now ++ [new] := htasks ▸ htask
      rcases List.mem_append.mp hmem with hkept | hnew
      · exact .inl ⟨task, (List.mem_filter.mp hkept).1, rfl⟩
      · exact .inr (congrArg _ (List.mem_singleton.mp hnew))

theorem traceless_taskStatus (text : String) :
    Traceless now fresh IsRefusal fun g => g.taskStatus now text where
  tidy := by
    intro g hg
    simp only [taskStatus, Gateway.tidy, TaskRegistry.status_swept hg.tasks]
  refused := by
    intro g hg _
    simp only [taskStatus, Gateway.tidy, TaskRegistry.swept_status hg.tasks]
  wellFormed hg _ := ⟨hg.store, hg.tasks.of_sublist (TaskRegistry.tasks_status ..)⟩
  tracks h := .inl (h.of_sublist (TaskRegistry.tasks_status ..))

/-! ## The poller -/

/-- Has the registry look at the jobs of its running tasks. -/
def poll (now : Instant) (g : Gateway) : Gateway :=
  { g with tasks := g.tasks.poll now g.store.jobStatus }

/-- A look at the jobs goes the same in a tidy gateway, but may leave tasks behind that it ends. -/
theorem poll_tidy (now : Instant) (g : Gateway) :
    ((g.tidy now).poll now).tidy now = (g.poll now).tidy now := by
  have hstore : (g.store.purge now).purge now = g.store.purge now :=
    Store.purge_purge (Int.le_refl now) g.store
  have htasks : ((g.tasks.swept now).poll now (g.store.purge now).jobStatus).swept now =
      (g.tasks.poll now g.store.jobStatus).swept now := g.tasks.poll_swept now g.store.jobStatus
  simp only [poll, tidy, hstore, htasks]

theorem WellFormed.poll (h : g.WellFormed) (now : Instant) : (g.poll now).WellFormed where
  store := h.store
  tasks := by
    rw [TaskRegistry.Distinct, Gateway.poll, TaskRegistry.ids_poll]
    exact h.tasks

theorem tracks_iff : g.Tracks id ↔ id ∈ g.tasks.tasks.map (·.id) := List.mem_map.symm

theorem tracks_poll : (g.poll now).Tracks id ↔ g.Tracks id := by
  rw [tracks_iff, tracks_iff, Gateway.poll, TaskRegistry.ids_poll]

end Gateway
end RecordService
