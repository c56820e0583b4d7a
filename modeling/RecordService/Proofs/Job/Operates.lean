import RecordService.Proofs.Job.Pass
import RecordService.Proofs.Scan.Frozen

/-!
# Jobs and operates

What a job does, a client could do: scan with the selection of the job, and operate on each of the
records that the scan has returned, until an error occurs.

* `Cell.operate_eq_applyJob`: what an operate decides on a live record is what a job decides.
* `JobRequest.runAll_operateAt`: operates on the selected records are a pass of the job.
* `Store.job_eq_operates`: a job is a scan followed by operates.
-/

namespace RecordService

/-! ## One record -/

namespace Operation

theorem apply_modified {p q : Progress} {op : Operation} (h : apply p op = .ok q) :
    q.modified = (p.modified || !op.isRead) := by
  cases op with
  | put | deleteBin | touch =>
    cases h
    exact (Bool.or_true _).symm
  | add | append | prepend =>
    obtain ⟨_, -, rfl⟩ := map_eq_ok_iff.mp h
    exact (Bool.or_true _).symm
  | read bin =>
    simp only [apply] at h
    split at h <;> cases h <;> exact (Bool.or_false _).symm
  | get =>
    cases h
    exact (Bool.or_false _).symm

/-- A list of operations changes a record unless all of them only report. -/
theorem applyFrom_modified {ops : List Operation} {p q : Progress} (h : applyFrom p ops = .ok q) :
    q.modified = (p.modified || ops.any (!·.isRead)) := by
  induction ops generalizing p with
  | nil =>
    cases h
    exact (Bool.or_false _).symm
  | cons op rest ih =>
    obtain ⟨p', hp, hq⟩ := bind_eq_ok_iff.mp h
    rw [ih hq, apply_modified hp, List.any_cons, Bool.or_assoc]

end Operation

/-- An operate that asks nothing of a live record decides on it what a job decides. -/
theorem Cell.operate_eq_applyJob {ops : List Operation} (hops : ops.any (!·.isRead))
    (now : Instant) (address : Address) (d : Digest) (r : StoredRecord) :
    (operate now address d ops {} (some r)).map (·.2) = applyJob ops r := by
  have hcheck : checkOperate (some r) ops {} = .ok () := rfl
  rw [operate, hcheck, applyJob]
  simp only [Except.bind, Option.getD_some]
  cases hdone : Operation.applyAll ops r.bins with
  | error why => rfl
  | ok done =>
    have hmodified : done.modified = true := by
      rw [Operation.applyFrom_modified hdone, hops, Bool.or_true]
    simp only [hmodified]
    rfl

/-! ## Operates one after the other -/

namespace JobRequest

variable {request : JobRequest} {now : Instant} {rs : Records} {d : Digest} {ds : List Digest}
  {s : Store} {r : StoredRecord}

/-- An operate with the operations of a job on the record at a digest. -/
def operateAt (request : JobRequest) (set : Option String) (d : Digest) : WriteCall :=
  .operate ⟨request.selection.ns, set, .digest d⟩ request.ops {}

/-- What the operate decides is what the job decides, and it has an answer to it. -/
theorem decide_operateAt (now : Instant) (hops : request.ops.any (!·.isRead))
    (set : Option String) (d : Digest) (r : StoredRecord) :
    ((request.operateAt set d).decide now (some r)).map (·.2) = Cell.applyJob request.ops r := by
  rw [← Cell.operate_eq_applyJob hops now ⟨request.selection.ns, set, .digest d⟩ d r]
  have hdecide : (request.operateAt set d).decide now (some r) =
      (Cell.operate now ⟨request.selection.ns, set, .digest d⟩ d request.ops {} (some r)).map
        fun p => (.operated p.1, p.2) := rfl
  rw [hdecide]
  cases Cell.operate now ⟨request.selection.ns, set, .digest d⟩ d request.ops {} (some r) <;> rfl

section Operate

variable (haccess : s.access = .ok false) (hrs : s.space? request.selection.ns = some rs)
  (hops : request.ops.any (!·.isRead))

include haccess hrs hops

theorem run_operateAt (set : Option String) (hr : request.target? now rs d = some r) :
    (request.operateAt set d).run now s =
      match (request.operateAt set d).decide now (some r) with
      | .error e => (.error e, s)
      | .ok (a, c) => (.ok a, s.setSpace request.selection.ns (rs.change d c)) := by
  have hlive : rs.live? now d = some r := (Option.filter_eq_some_iff.mp hr).1
  have hempty : (request.operateAt set d).isEmpty = false := by
    obtain ⟨op, hop, -⟩ := List.any_eq_true.mp hops
    exact List.isEmpty_eq_false_iff.mpr (List.ne_nil_of_mem hop)
  have haddress : (request.operateAt set d).address = ⟨request.selection.ns, set, .digest d⟩ := rfl
  have hdigest : (Address.digest ⟨request.selection.ns, set, .digest d⟩) = d := rfl
  rw [WriteCall.run_eq, hempty, if_neg Bool.false_ne_true, Store.write_of_access haccess,
    Store.verdict, haddress, hdigest, Store.space_eq_ok_iff.mpr hrs]
  simp only [Except.bind, hlive]
  cases (request.operateAt set d).decide now (some r) with
  | error e => rfl
  | ok p => rfl

theorem run_operateAt_of_refused {e : StoreError} (set : Option String)
    (hr : request.target? now rs d = some r) (he : Cell.applyJob request.ops r = .error e) :
    (request.operateAt set d).run now s = (.error e, s) := by
  rw [run_operateAt haccess hrs hops set hr]
  rw [← decide_operateAt now hops set d r] at he
  cases hd : (request.operateAt set d).decide now (some r) with
  | error e' =>
    rw [hd] at he
    cases he
    rfl
  | ok p =>
    rw [hd] at he
    cases he

theorem run_operateAt_of_changed {c : Change} (set : Option String)
    (hr : request.target? now rs d = some r) (hc : Cell.applyJob request.ops r = .ok c) :
    ∃ a, (request.operateAt set d).run now s =
      (.ok a, s.setSpace request.selection.ns (rs.change d c)) := by
  rw [run_operateAt haccess hrs hops set hr]
  rw [← decide_operateAt now hops set d r] at hc
  obtain ⟨p, hd, rfl⟩ := map_eq_ok_iff.mp hc
  exact ⟨p.1, by rw [hd]⟩

end Operate

/-- Operates at digests at which a job changes something leave the records as a pass of the job
does, and come to the same end. -/
theorem runAll_operateAt (hops : request.ops.any (!·.isRead)) (set : Option String)
    (haccess : s.access = .ok false) (hwf : s.WellFormed)
    (hrs : s.space? request.selection.ns = some rs) (hnodup : ds.Nodup)
    (hds : ∀ d ∈ ds, (request.target? now rs d).isSome) (changed : Nat) :
    (WriteCall.runAll now (ds.map (request.operateAt set)) s).2 =
        s.setSpace request.selection.ns (request.visitAll now ds rs changed).1 ∧
      (request.visitAll now ds rs changed).2 =
        match (WriteCall.runAll now (ds.map (request.operateAt set)) s).1 with
        | none => .ok (changed + ds.length)
        | some e => .error e := by
  induction ds generalizing s rs changed with
  | nil => exact ⟨(hwf.setSpace_self hrs).symm, rfl⟩
  | cons d rest ih =>
    obtain ⟨hd, hrest⟩ := List.nodup_cons.mp hnodup
    obtain ⟨hfound, hds⟩ := List.forall_mem_cons.mp hds
    obtain ⟨r, hr⟩ := Option.isSome_iff_exists.mp hfound
    cases hc : Cell.applyJob request.ops r with
    | error e =>
      have hrun := run_operateAt_of_refused haccess hrs hops set hr hc
      simp only [List.map_cons, WriteCall.runAll, hrun, visitAll_of_refused hr hc, and_true]
      exact (hwf.setSpace_self hrs).symm
    | ok c =>
      obtain ⟨a, hrun⟩ := run_operateAt_of_changed haccess hrs hops set hr hc
      have hlive : rs.live? now d = some r := (Option.filter_eq_some_iff.mp hr).1
      have hrs' : (rs.change d c).WellFormed :=
        (hwf.space? hrs).change d
          (Cell.applyJob_wellFormed ((hwf.space? hrs).live_bins now d r hlive) hc)
      -- What is found at the digests behind `d` is what was found before.
      have hds' : ∀ x ∈ rest, (request.target? now (rs.change d c) x).isSome := fun x hx => by
        rw [target?_change_of_ne fun hxd : x = d => hd (hxd ▸ hx)]
        exact hds x hx
      have hspace : (s.setSpace request.selection.ns (rs.change d c)).space?
          request.selection.ns = some (rs.change d c) :=
        (Store.space?_setSpace s _ _ _).trans (if_pos rfl)
      obtain ⟨hstore, hend⟩ := ih (s := s.setSpace request.selection.ns (rs.change d c)) haccess
        (hwf.setSpace _ hrs') hspace hrest hds' (changed + 1)
      rw [Store.setSpace_setSpace] at hstore
      rw [visitAll_of_changed hr hc]
      simp only [List.map_cons, WriteCall.runAll, hrun, List.length_cons]
      refine ⟨hstore, hend.trans ?_⟩
      rw [Nat.add_assoc, Nat.add_comm 1]

end JobRequest

/-! ## The job -/

namespace Store

variable {s : Store} {now : Instant} {job : Job} {limits : ScanLimits} {calls : List ScanCall}

/-- The store with all its nodes up and no fault in its way, which jobs pass by. -/
def undisturbed (s : Store) : Store := { s with down := [], fault := none }

theorem undisturbed_access (s : Store) : s.undisturbed.access = .ok false := by
  refine access_of_reachable (s := s.undisturbed) ?_
  cases hnodes : s.settings.nodes with
  | nil => exact .inl hnodes
  | cons node rest => exact .inr ⟨node, by simp [undisturbed, hnodes], rfl⟩

section Operates

variable {ds : List Digest} {rs : Records} {e : StoreError}

/-- One pass over the live records of the set ends the job as operates on the selected ones end. -/
theorem passJob_eq_runAll (hwf : s.WellFormed) (hops : job.request.ops.any (!·.isRead))
    (hrs : s.space? job.request.selection.ns = some rs)
    (hds : ds = (rs.selected now job.request.selection).map (·.1)) (set : Option String) :
    s.passJob now { job } (job.request.candidates now rs) rs =
      let after := WriteCall.runAll now (ds.map (job.request.operateAt set)) s.undisturbed
      ({ s with spaces := after.2.spaces } : Store).endJob now job.id
        (match after.1 with
          | none => .done ds.length
          | some e => .failed e.message) := by
  have hsorted := (hwf.space? hrs).sorted
  have hnodup : ds.Nodup := hds ▸ (hsorted.filter _).keys_nodup
  have htarget : ∀ d ∈ ds, (job.request.target? now rs d).isSome :=
    hds ▸ JobRequest.target?_of_selected hsorted
  obtain ⟨hstore, hend⟩ := JobRequest.runAll_operateAt hops set s.undisturbed_access
    (hwf.of_spaces rfl) hrs hnodup htarget 0
  simp only [passJob, JobRequest.visitAll_candidates hsorted, ← hds, hstore, hend]
  cases (WriteCall.runAll now (ds.map (job.request.operateAt set)) s.undisturbed).1 with
  | none =>
    simp only [Nat.zero_add]
    rfl
  | some e => rfl

/-- If an error ended the operates, the records that were not reached are as before. -/
theorem runAll_operateAt_stops (hnodup : ds.Nodup) (request : JobRequest) (set : Option String)
    (he : (WriteCall.runAll now (ds.map (request.operateAt set)) s.undisturbed).1 = some e) :
    ∃ front d rest, ds = front ++ d :: rest ∧
      let before := WriteCall.runAll now (front.map (request.operateAt set)) s.undisturbed
      before.1 = none ∧ (request.operateAt set d).run now before.2 = (.error e, before.2) ∧
        ∀ x ∈ d :: rest,
          (WriteCall.runAll now (ds.map (request.operateAt set)) s.undisturbed).2.record?
            request.selection.ns x = s.record? request.selection.ns x := by
  obtain ⟨front, w, rest, hsplit, hnone, herror⟩ := WriteCall.runAll_eq_some he
  obtain ⟨front, ds', rfl, rfl, hback⟩ := List.map_eq_append_iff.mp hsplit
  obtain ⟨d, rest, rfl, rfl, rfl⟩ := List.map_eq_cons_iff.mp hback
  have haccess : (WriteCall.runAll now (front.map (request.operateAt set)) s.undisturbed).2.access =
      .ok false := (WriteCall.runAll_access now _ _).trans s.undisturbed_access
  have hkept := WriteCall.run_eq_error haccess herror
  rw [hkept] at herror ⊢
  refine ⟨front, d, rest, rfl, hnone, herror, fun x hx => ?_⟩
  refine WriteCall.runAll_frame fun w hw ⟨_, hdigest⟩ => ?_
  obtain ⟨y, hy, rfl⟩ := List.mem_map.mp hw
  -- Neither the record with the error nor one behind it is among those in front.
  exact (List.nodup_append.mp hnodup).2.2 y hy x hx hdigest.symm

end Operates

/-- A job with nothing else going on is a scan of its selection, followed by an operate on each
record that was returned, in order, up to the first error. It leaves the same records and comes to
the same end: `done` with the count of the records, or `failed` with the text of the error. Then
the record with the error and all behind it are as before. -/
theorem job_eq_operates (hwf : s.WellFormed) (hactive : s.pool.find? job.id = some { job })
    (hops : job.request.ops ≠ []) (hwrites : ∀ op ∈ job.request.ops, op.isRead = false)
    (hscan : ScanChain limits job.request.selection none calls)
    (hfrozen : ∀ c ∈ calls, c.moment = ⟨s.undisturbed, now⟩) (set : Option String) :
    let listed := calls.flatMap (·.digests)
    let after := WriteCall.runAll now (listed.map (job.request.operateAt set)) s.undisturbed
    let outcome : JobState :=
      match after.1 with
      | none => .done listed.length
      | some e => .failed e.message
    (∃ n, ∀ m, n ≤ m → Moment.run ⟨s, now⟩ (List.replicate m (.stepJob job.id)) =
        ⟨({ s with spaces := after.2.spaces } : Store).endJob now job.id outcome, now⟩) ∧
      ∀ e, after.1 = some e → ∃ front d rest, listed = front ++ d :: rest ∧
        let before :=
          WriteCall.runAll now (front.map (job.request.operateAt set)) s.undisturbed
        before.1 = none ∧ (job.request.operateAt set d).run now before.2 = (.error e, before.2) ∧
          ∀ x ∈ d :: rest, after.2.record? job.request.selection.ns x =
            s.record? job.request.selection.ns x := by
  have hany : job.request.ops.any (!·.isRead) := by
    obtain ⟨op, hop⟩ := List.exists_mem_of_ne_nil _ hops
    exact List.any_eq_true.mpr ⟨op, hop, by simp [hwrites op hop]⟩
  obtain ⟨rs, hrs, hlisted⟩ := hscan.digests_frozen (hwf.of_spaces (t := s.undisturbed) rfl) hfrozen
  have hrs : s.space? job.request.selection.ns = some rs := hrs
  have hnodup : (calls.flatMap (·.digests)).Nodup :=
    hlisted ▸ ((hwf.space? hrs).sorted.filter _).keys_nodup
  intro listed after outcome
  have hpass := passJob_eq_runAll hwf hany hrs hlisted set
  obtain ⟨n, hrun⟩ := run_fresh hactive hrs hwf now
  rw [hpass] at hrun
  exact ⟨⟨n, hrun⟩, fun e he => runAll_operateAt_stops hnodup job.request set he⟩

/-! ### A job that fails at its second record -/

/-- A job that adds to a bin of the records of a set. -/
def addJob : Job := ⟨1, ⟨⟨"test", some "a", none⟩, [.add "n" (.int 1)]⟩⟩

/-- Records of the set and one of no set. The second of the set has text in the bin. -/
def addRecords (first : StoredRecord) : Records :=
  [(ScanChain.digestOfByte 1, first),
    (ScanChain.digestOfByte 2, ⟨none, none, [("n", .int 5)], 1, none⟩),
    (ScanChain.digestOfByte 3, ⟨some "a", none, [("n", .string "x")], 1, none⟩),
    (ScanChain.digestOfByte 4, ⟨some "a", none, [("n", .int 2)], 1, none⟩)]

/-- A store where a worker has taken the job. A batch is two records. -/
def addStore : Store :=
  { settings := { jobBatchSize := 2 }
    spaces := [("test", addRecords ⟨some "a", none, [("n", .int 1)], 1, none⟩)]
    pool := { active := [{ job := addJob }], workers := 2 } }

theorem addStore_wellFormed : addStore.WellFormed where
  sorted := List.pairwise_singleton _ _
  records := by
    refine List.forall_mem_singleton.mpr ⟨?_, ?_⟩
    · simp only [Ordered.Sorted]
      decide
    · simp [addRecords, Ordered.Sorted]

/-- The one page of a scan of the set. -/
def addScan : ScanCall :=
  let record (b : UInt8) (v : Value) : Record :=
    let d := ScanChain.digestOfByte b
    ⟨⟨"test", some "a", .digest d⟩, d, [("n", v)], 1, none⟩
  ⟨⟨addStore.undisturbed, 0⟩, none, none,
    [record 1 (.int 1), record 3 (.string "x"), record 4 (.int 2)], none⟩

theorem addScan_chain : ScanChain {} addJob.request.selection none [addScan] := by
  have hwf : addStore.undisturbed.WellFormed := addStore_wellFormed.of_spaces rfl
  refine .last ?_ rfl
  refine (ScanLimits.scan_eq_ok_iff hwf 0 _ none none none _).mpr ?_
  exact ⟨100, _, rfl, rfl, rfl, rfl⟩

/-- The first record is changed, and the last one is not reached. -/
theorem job_eq_operates_addJob :
    ∃ n, ∀ m, n ≤ m →
      let after := (Moment.run ⟨addStore, 0⟩ (List.replicate m (.stepJob addJob.id))).store
      after.spaces = [("test", addRecords ⟨some "a", none, [("n", .int 2)], 2, none⟩)] ∧
        after.jobs =
          [(1, ⟨.failed "parameter error: cannot add Int to String bin 'n'", some 0⟩)] := by
  have hactive : addStore.pool.find? addJob.id = some { job := addJob } := rfl
  have hwrites : ∀ op ∈ addJob.request.ops, op.isRead = false := List.forall_mem_singleton.mpr rfl
  have hfrozen : ∀ c ∈ [addScan], c.moment = ⟨addStore.undisturbed, 0⟩ :=
    List.forall_mem_singleton.mpr rfl
  obtain ⟨⟨n, hrun⟩, -⟩ := job_eq_operates addStore_wellFormed hactive (List.cons_ne_nil _ _)
    hwrites addScan_chain hfrozen none
  refine ⟨n, fun m hm => ?_⟩
  rw [hrun m hm]
  exact ⟨rfl, rfl⟩

end Store
end RecordService
