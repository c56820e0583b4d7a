import RecordService.Gateway.Basic
import RecordService.Proofs.Record.NaN

/-!
# The gateway up to the bits of a NaN

Writes and tasks that are alike up to the bits of their NaNs have the same outcome and leave the
same gateway, up to the bits of the NaNs in it.

* `Store.mergeNaN`, `Gateway.mergeNaN`: one NaN in place of all.
* `Cell.put_congr`, `Cell.operate_congr`: what a write decides on one record.
* `Store.write_congr`, `Store.startJob_congr`, `TaskRegistry.submit_congr`: the steps behind a call.
* `Gateway.putRecord_congr`, `operate_congr`, `submit_congr`: the calls.
-/

namespace RecordService

/-! ## One NaN for all -/

/-- The record with one NaN in place of all. -/
def StoredRecord.mergeNaN (r : StoredRecord) : StoredRecord := { r with bins := r.bins.mergeNaN }

/-- The record with one NaN in place of all. -/
def Record.mergeNaN (r : Record) : Record := { r with bins := r.bins.mergeNaN }

/-- The change with one NaN in place of all. -/
def Change.mergeNaN : Change → Change
  | keep => keep
  | remove => remove
  | store r => store r.mergeNaN

/-- A record without bins ceases to exist, whatever the bits of its NaNs. -/
theorem Change.mergeNaN_ite (r : StoredRecord) :
    Change.mergeNaN (if r.bins.isEmpty then .remove else .store r) =
      if r.mergeNaN.bins.isEmpty then .remove else .store r.mergeNaN := by
  have hempty : r.mergeNaN.bins.isEmpty = r.bins.isEmpty := Bins.isEmpty_mergeNaN r.bins
  rw [hempty]
  split <;> rfl

namespace Records

/-- The records with one NaN in place of all. -/
def mergeNaN (rs : Records) : Records := rs.map fun e => (e.1, e.2.mergeNaN)

theorem mergeNaN_change (d : Digest) (rs : Records) (c : Change) :
    mergeNaN (rs.change d c) = rs.mergeNaN.change d c.mergeNaN := by
  cases c with
  | keep => rfl
  | remove => exact (Ordered.erase_map _ _ _).symm
  | store r => exact (Ordered.insert_map _ _ _ _).symm

end Records

/-- The job with one NaN in place of all. -/
def JobRequest.mergeNaN (request : JobRequest) : JobRequest :=
  { request with ops := request.ops.map Operation.mergeNaN }

/-- The job with one NaN in place of all. -/
def Job.mergeNaN (job : Job) : Job := { job with request := job.request.mergeNaN }

/-- The jobs with one NaN in place of all. -/
def JobPool.mergeNaN (p : JobPool) : JobPool :=
  { p with
    queue := p.queue.map Job.mergeNaN
    active := p.active.map fun a => { a with job := a.job.mergeNaN } }

/-- The store with one NaN in place of all. -/
def Store.mergeNaN (s : Store) : Store :=
  { s with
    spaces := s.spaces.map fun e => (e.1, e.2.mergeNaN)
    pool := s.pool.mergeNaN }

/-- The gateway with one NaN in place of all. -/
def Gateway.mergeNaN (g : Gateway) : Gateway := { g with store := g.store.mergeNaN }

/-! ## Lists of operations -/

namespace Operation

variable {ops ops' : List Operation}

/-- What is the same of a list of operations with its NaNs merged is the same of lists that are
alike. -/
theorem congr_of_mergeNaN {α : Type} {f : List Operation → α}
    (hf : ∀ ops, f (ops.map mergeNaN) = f ops) (h : ops.map mergeNaN = ops'.map mergeNaN) :
    f ops = f ops' := by
  rw [← hf ops, h, hf]

theorem isEmpty_congr (h : ops.map mergeNaN = ops'.map mergeNaN) : ops.isEmpty = ops'.isEmpty :=
  congr_of_mergeNaN (fun _ => List.isEmpty_map) h

theorem any_isRead_congr (h : ops.map mergeNaN = ops'.map mergeNaN) :
    ops.any isRead = ops'.any isRead := by
  refine congr_of_mergeNaN (f := fun ops => ops.any isRead) (fun ops => ?_) h
  exact List.any_map.trans (congrArg ops.any (funext isRead_mergeNaN))

theorem creates_congr (h : ops.map mergeNaN = ops'.map mergeNaN) :
    Cell.creates ops = Cell.creates ops' := by
  refine congr_of_mergeNaN (fun ops => ?_) h
  unfold Cell.creates
  rw [List.any_map, List.any_map]
  congr 3 <;> funext op <;> cases op <;> rfl

theorem checkOperations_congr (h : ops.map mergeNaN = ops'.map mergeNaN) :
    TaskRegistry.checkOperations ops = TaskRegistry.checkOperations ops' := by
  refine congr_of_mergeNaN (fun ops => ?_) h
  have hshown : TaskRegistry.shownReport? ∘ mergeNaN = TaskRegistry.shownReport? :=
    funext fun op => by cases op <;> rfl
  unfold TaskRegistry.checkOperations
  rw [List.isEmpty_map, List.findSome?_map, hshown]

end Operation

/-! ## One record -/

namespace Cell

variable {now : Instant} {address : Address} {options : WriteOptions} {live : Option StoredRecord}

theorem putBins_congr (live : Option StoredRecord) (mode : WriteMode) {given given' : Bins}
    (h : given.mergeNaN = given'.mergeNaN) :
    Bins.mergeNaN (putBins live mode given) = Bins.mergeNaN (putBins live mode given') := by
  have hmerge : ∀ bins, Bins.mergeNaN (merge bins given) = Bins.mergeNaN (merge bins given') := by
    intro bins
    have hstore := Bins.foldl_mergeNaN Bins.store_mergeNaN bins
    exact (hstore given).symm.trans (h ▸ hstore given')
  cases live <;> exact hmerge _

/-- Puts of bins that are alike decide alike. -/
theorem put_congr {given given' : Bins} (h : given.mergeNaN = given'.mergeNaN) :
    (put now address given options live).map (Prod.map id Change.mergeNaN) =
      (put now address given' options live).map (Prod.map id Change.mergeNaN) := by
  have hbins := putBins_congr live options.mode h
  have hempty : (putBins live options.mode given).isEmpty =
      (putBins live options.mode given').isEmpty := by
    rw [← Bins.isEmpty_mergeNaN, hbins, Bins.isEmpty_mergeNaN]
  unfold put
  cases checkPut live options with
  | error e => rfl
  | ok _ =>
    simp only [Except.map, hempty]
    split
    · rfl
    · simp only [Prod.map, Change.mergeNaN, StoredRecord.mergeNaN, hbins]

/-- The answers to operations that report alike, of records that are alike. -/
theorem answer_congr {r r' : StoredRecord} {results results' : Bins} (address : Address)
    (d : Digest) (now : Instant) (hr : r.mergeNaN = r'.mergeNaN)
    (hresults : results.mergeNaN = results'.mergeNaN) :
    Record.mergeNaN { r.toRecord address.ns d results now with address := address } =
      Record.mergeNaN { r'.toRecord address.ns d results' now with address := address } := by
  obtain ⟨hset, hkey, -, hgeneration, hexpiresAt⟩ := StoredRecord.mk.inj hr
  simp only [Record.mergeNaN, StoredRecord.toRecord, StoredRecord.remaining, hgeneration,
    hexpiresAt, hresults]

/-- Operations that are alike decide alike. -/
theorem operate_congr {d : Digest} {ops ops' : List Operation}
    (h : ops.map Operation.mergeNaN = ops'.map Operation.mergeNaN) :
    (operate now address d ops options live).map (Prod.map Record.mergeNaN Change.mergeNaN) =
      (operate now address d ops' options live).map
        (Prod.map Record.mergeNaN Change.mergeNaN) := by
  have hcheck : checkOperate live ops options = checkOperate live ops' options := by
    unfold checkOperate
    rw [Operation.creates_congr h]
  have hall := Operation.applyAll_congr h (live.getD (fresh address)).bins
  unfold operate
  rw [hcheck]
  cases checkOperate live ops' options with
  | error e => rfl
  | ok _ =>
    simp only [Except.bind]
    obtain ⟨why, hdone, hdone'⟩ | ⟨done, done', hdone, hdone', hsame⟩ := map_eq_map_cases hall
    · rw [hdone, hdone']
    · obtain ⟨hbins, hresults, hmodified⟩ := Operation.Progress.mk.inj hsame
      have hafter : (modified now options done.bins (live.getD (fresh address))).mergeNaN =
          (modified now options done'.bins (live.getD (fresh address))).mergeNaN := by
        simp only [modified, StoredRecord.mergeNaN, hbins]
      rw [hdone, hdone']
      simp only [hmodified]
      split
      · exact congrArg (fun record => Except.ok (record, Change.keep))
          (answer_congr address d now rfl hresults)
      · refine congrArg Except.ok (Prod.ext (answer_congr address d now hafter hresults) ?_)
        simp only [Prod.map, Change.mergeNaN_ite, hafter]

end Cell

/-! ## The store -/

namespace Store

variable {s : Store} {now : Instant} {address : Address}

theorem mergeNaN_setSpace (ns : String) (rs : Records) :
    (s.setSpace ns rs).mergeNaN = s.mergeNaN.setSpace ns rs.mergeNaN := by
  simp only [mergeNaN, setSpace, Ordered.insert_map]

/-- Writes that decide alike have outcomes that are alike. -/
theorem write_congr {α β : Type} {f : α → β}
    {decide decide' : Option StoredRecord → Except StoreError (α × Change)}
    (h : ∀ live, (decide live).map (Prod.map f Change.mergeNaN) =
      (decide' live).map (Prod.map f Change.mergeNaN)) :
    (s.write now address decide).1.map f = (s.write now address decide').1.map f ∧
      (s.write now address decide).2.mergeNaN = (s.write now address decide').2.mergeNaN := by
  unfold write
  cases s.access with
  | error e => exact ⟨rfl, rfl⟩
  | ok doubt =>
    cases s.space address.ns with
    | error e => exact ⟨rfl, rfl⟩
    | ok rs =>
      simp only []
      obtain ⟨e, hd, hd'⟩ | ⟨⟨a, change⟩, ⟨a', change'⟩, hd, hd', hsame⟩ :=
        map_eq_map_cases (h (rs.live? now address.digest))
      · rw [hd, hd']
        exact ⟨rfl, rfl⟩
      · obtain ⟨ha, hchange⟩ := Prod.mk.inj hsame
        rw [hd, hd']
        simp only [mergeNaN_setSpace, Records.mergeNaN_change, hchange, and_true]
        cases doubt with
        | true => rfl
        | false => exact congrArg Except.ok ha

/-- Jobs whose operations are alike are accepted or refused alike. -/
theorem startJob_congr (s : Store) (now : Instant) (selection : Selection)
    {ops ops' : List Operation} (h : ops.map Operation.mergeNaN = ops'.map Operation.mergeNaN) :
    (s.startJob now ⟨selection, ops⟩).1 = (s.startJob now ⟨selection, ops'⟩).1 ∧
      (s.startJob now ⟨selection, ops⟩).2.mergeNaN =
        (s.startJob now ⟨selection, ops'⟩).2.mergeNaN := by
  have hcheck : s.checkJob ⟨selection, ops⟩ = s.checkJob ⟨selection, ops'⟩ := by
    unfold checkJob
    simp only [Operation.isEmpty_congr h, Operation.any_isRead_congr h]
  unfold startJob
  rw [hcheck]
  cases s.checkJob ⟨selection, ops'⟩ with
  | error e => exact ⟨rfl, rfl⟩
  | ok _ =>
    simp only []
    split
    · refine ⟨rfl, ?_⟩
      simp only [mergeNaN, JobPool.mergeNaN, List.map_append, List.map_cons, Job.mergeNaN,
        JobRequest.mergeNaN, h]
    · exact ⟨rfl, rfl⟩

end Store

/-! ## Tasks -/

/-- Tasks whose operations are alike are accepted or refused alike. -/
theorem TaskRegistry.submit_congr (r : TaskRegistry) (s : Store) (now : Instant) (fresh : TaskId)
    (selection : Selection) {ops ops' : List Operation}
    (h : ops.map Operation.mergeNaN = ops'.map Operation.mergeNaN) :
    (r.submit now fresh selection ops s).1 = (r.submit now fresh selection ops' s).1 ∧
      (r.submit now fresh selection ops s).2.1 = (r.submit now fresh selection ops' s).2.1 ∧
      (r.submit now fresh selection ops s).2.2.mergeNaN =
        (r.submit now fresh selection ops' s).2.2.mergeNaN := by
  unfold submit
  rw [Operation.checkOperations_congr h]
  cases checkOperations ops' with
  | error e => exact ⟨rfl, rfl, rfl⟩
  | ok _ =>
    simp only []
    cases (r.sweep now).2.reserve with
    | error e => exact ⟨rfl, rfl, rfl⟩
    | ok r =>
      obtain ⟨hanswer, hstore⟩ := Store.startJob_congr s now selection h
      unfold hand
      cases hjob : s.startJob now ⟨selection, ops⟩ with
      | mk answer t =>
        cases hjob' : s.startJob now ⟨selection, ops'⟩ with
        | mk answer' t' =>
          rw [hjob, hjob'] at hanswer hstore
          cases hanswer
          cases answer with
          | error e => exact ⟨rfl, rfl, hstore⟩
          | ok job => exact ⟨rfl, rfl, hstore⟩

/-! ## The gateway -/

namespace Gateway

variable {g : Gateway} {now : Instant} {address : Address}

/-- What a store call leaves of the gateway is alike if it leaves alike of the store. -/
theorem ofStoreCall_congr {α β : Type} {f : α → β} {o o' : Except StoreError α × Store}
    (h : o.1.map f = o'.1.map f ∧ o.2.mergeNaN = o'.2.mergeNaN) :
    (g.ofStoreCall o).1.map f = (g.ofStoreCall o').1.map f ∧
      (g.ofStoreCall o).2.mergeNaN = (g.ofStoreCall o').2.mergeNaN := by
  obtain ⟨answer, s⟩ := o
  obtain ⟨answer', s'⟩ := o'
  refine ⟨?_, by simp only [mergeNaN, ofStoreCall, h.2]⟩
  obtain ⟨e, rfl, rfl⟩ | ⟨a, b, rfl, rfl, hab⟩ := map_eq_map_cases h.1
  · rfl
  · exact congrArg Except.ok hab

theorem putRecord_congr {bins bins' : Bins} (h : bins.mergeNaN = bins'.mergeNaN)
    (options : WriteOptions) :
    (g.putRecord now address bins options).1 = (g.putRecord now address bins' options).1 ∧
      (g.putRecord now address bins options).2.mergeNaN =
        (g.putRecord now address bins' options).2.mergeNaN := by
  have hempty : bins.isEmpty = bins'.isEmpty := by
    rw [← Bins.isEmpty_mergeNaN, h, Bins.isEmpty_mergeNaN]
  unfold putRecord
  rw [hempty]
  split
  · exact ⟨rfl, rfl⟩
  · have hput : (g.store.put now address bins options).1.map id =
          (g.store.put now address bins' options).1.map id ∧
        (g.store.put now address bins options).2.mergeNaN =
          (g.store.put now address bins' options).2.mergeNaN :=
      Store.write_congr fun live => Cell.put_congr h
    have hcall := ofStoreCall_congr (g := g) hput
    simpa only [Except.map_id, id] using hcall

theorem operate_congr (g : Gateway) (now : Instant) (address : Address) (p : WriteParameters)
    {ops ops' : List Operation} (h : ops.map Operation.mergeNaN = ops'.map Operation.mergeNaN) :
    (g.operate now address ops p).1.map Record.mergeNaN =
        (g.operate now address ops' p).1.map Record.mergeNaN ∧
      (g.operate now address ops p).2.mergeNaN = (g.operate now address ops' p).2.mergeNaN := by
  unfold operate
  rw [Operation.isEmpty_congr h]
  split
  · exact ⟨rfl, rfl⟩
  · refine ofStoreCall_congr ?_
    unfold Store.operate
    rw [Operation.isEmpty_congr h]
    split
    · exact ⟨rfl, rfl⟩
    · exact Store.write_congr fun live => Cell.operate_congr h

theorem submit_congr (g : Gateway) (now : Instant) (fresh : TaskId) (selection : Selection)
    {ops ops' : List Operation} (h : ops.map Operation.mergeNaN = ops'.map Operation.mergeNaN) :
    (g.submit now fresh selection ops).1 = (g.submit now fresh selection ops').1 ∧
      (g.submit now fresh selection ops).2.mergeNaN =
        (g.submit now fresh selection ops').2.mergeNaN := by
  obtain ⟨htask, htasks, hstore⟩ := g.tasks.submit_congr g.store now fresh selection h
  simp only [submit, htask, htasks, mergeNaN, hstore, and_self]

end Gateway
end RecordService
