import RecordService.Proofs.Store.Write
import RecordService.Store.Info
import RecordService.Store.Scan

/-!
# Expired records

A record that has expired stays where it is until something is stored or removed at its digest.
Nothing that a store does depends on it in the meantime: to purge the store of expired records
first, and to do so afterwards, comes to the same.

* `Records.purge`, `Store.purge`: all expired records are removed.
* `Change.IsLive`: what a write stores has not expired, `Cell.put_isLive` and its like.
* `Store.get_purge` and its like: an answer is the same from a purged store.
* `Store.write_purge`, `Store.stepJob_purge`: a purge commutes with writes and with jobs.
* `Store.delete_missing`: to delete what is not there, or has expired, is a part of a purge.
-/

namespace RecordService

/-! ## Expiry -/

namespace StoredRecord

/-- Whether a record's time is over. -/
def hasExpired (now : Instant) (r : StoredRecord) : Bool := r.expiresAt.any (· ≤ now)

theorem isLive_eq_not_hasExpired (now : Instant) (r : StoredRecord) :
    r.isLive now = !r.hasExpired now := by
  unfold isLive hasExpired
  cases r.expiresAt with
  | none => rfl
  | some at_ =>
    simp only [Option.any_some]
    rw [← decide_not, decide_eq_decide]
    exact Int.not_le.symm

theorem isLive_iff {now : Instant} {r : StoredRecord} :
    r.isLive now ↔ ∀ at_ ∈ r.expiresAt, now < at_ := by
  unfold isLive
  cases r.expiresAt <;> simp

end StoredRecord

/-- What is stored has not expired. -/
def Change.IsLive (now : Instant) : Change → Prop
  | .keep | .remove => True
  | .store r => r.isLive now

namespace Cell

variable {now : Instant}

/-- A time of expiry that is set or kept is still to come. -/
theorem lt_expiry {ttl : Option UInt32} {current : Option Instant}
    (h : ∀ at_ ∈ current, now < at_) : ∀ at_ ∈ expiry ttl current now, now < at_ := by
  intro at_ hat
  cases ttl with
  | none => exact h at_ hat
  | some seconds =>
    simp only [expiry] at hat
    split at hat
    · cases hat
    · rename_i hpos
      cases hat
      have hnat : seconds.toNat ≠ 0 := fun h0 => hpos (UInt32.toNat_inj.mp h0)
      exact Int.lt_add_of_pos_right now (by omega)

theorem put_isLive {address : Address} {given : Bins} {options : WriteOptions}
    {live : Option StoredRecord} {a : Unit} {c : Change} (h : ∀ r ∈ live, r.isLive now)
    (hc : put now address given options live = .ok (a, c)) : c.IsLive now := by
  obtain ⟨-, ⟨-, rfl⟩ | ⟨-, rfl⟩⟩ := put_cases hc
  · trivial
  · refine StoredRecord.isLive_iff.mpr (lt_expiry ?_)
    cases live with
    | none => exact fun _ h => nomatch h
    | some r => exact StoredRecord.isLive_iff.mp (h r rfl)

theorem delete_isLive {options : WriteOptions} {live : Option StoredRecord} {a : Bool}
    {c : Change} (hc : delete options live = .ok (a, c)) : c.IsLive now := by
  obtain ⟨rfl, -⟩ := delete_cases hc
  trivial

theorem operate_isLive {address : Address} {d : Digest} {ops : List Operation}
    {options : WriteOptions} {live : Option StoredRecord} {a : Record} {c : Change}
    (h : ∀ r ∈ live, r.isLive now)
    (hc : operate now address d ops options live = .ok (a, c)) : c.IsLive now := by
  have hbefore : ∀ at_ ∈ (live.getD (fresh address)).expiresAt, now < at_ := by
    cases live with
    | none => exact fun _ h => nomatch h
    | some r => exact StoredRecord.isLive_iff.mp (h r rfl)
  obtain ⟨-, done, -, ⟨-, rfl⟩ | ⟨-, -, rfl⟩ | ⟨-, -, rfl⟩⟩ := operate_cases hc
  · trivial
  · trivial
  · exact StoredRecord.isLive_iff.mpr (lt_expiry hbefore)

theorem applyJob_isLive {ops : List Operation} {r : StoredRecord} {c : Change}
    (h : r.isLive now) (hc : applyJob ops r = .ok c) : c.IsLive now := by
  obtain ⟨done, -, ⟨-, rfl⟩ | ⟨-, rfl⟩⟩ := applyJob_cases hc
  · trivial
  · exact h

end Cell

theorem WriteCall.decide_isLive {w : WriteCall} {now : Instant} {live : Option StoredRecord}
    {a : WriteAnswer} {c : Change} (h : ∀ r ∈ live, r.isLive now)
    (hc : w.decide now live = .ok (a, c)) : c.IsLive now := by
  cases w with
  | put address bins options =>
    obtain ⟨⟨_, _⟩, hput, hc⟩ := map_eq_ok_iff.mp hc
    cases hc
    exact Cell.put_isLive h hput
  | delete address options =>
    obtain ⟨⟨_, _⟩, hdelete, hc⟩ := map_eq_ok_iff.mp hc
    cases hc
    exact Cell.delete_isLive hdelete
  | operate address ops options =>
    obtain ⟨⟨_, _⟩, hoperate, hc⟩ := map_eq_ok_iff.mp hc
    cases hc
    exact Cell.operate_isLive h hoperate

/-! ## The records of a namespace -/

namespace Records

variable {rs : Records} {now : Instant}

/-- The records without those that have expired. -/
def purge (now : Instant) (rs : Records) : Records := rs.filter (!·.2.hasExpired now)

theorem purge_eq_live (now : Instant) (rs : Records) : rs.purge now = rs.live now :=
  List.filter_congr fun e _ => (e.2.isLive_eq_not_hasExpired now).symm

theorem live?_isLive {d : Digest} : ∀ r ∈ rs.live? now d, r.isLive now :=
  fun _ hr => (Option.filter_eq_some_iff.mp hr).2

/-- What is found in purged records is what calls find. -/
theorem find?_purge (h : Ordered.Sorted rs) (d : Digest) :
    Ordered.find? d (rs.purge now) = rs.live? now d := by
  rw [purge_eq_live, live, Ordered.find?_filter h]
  rfl

theorem live?_purge (h : Ordered.Sorted rs) (d : Digest) :
    (rs.purge now).live? now d = rs.live? now d := by
  rw [live?, find?_purge h, live?, Option.filter_filter]
  simp

theorem live_purge (now : Instant) (rs : Records) : (rs.purge now).live now = rs.live now := by
  rw [purge_eq_live, live, live, List.filter_filter]
  simp

theorem purge_purge {now' : Instant} (h : now ≤ now') (rs : Records) :
    (rs.purge now).purge now' = rs.purge now' := by
  rw [purge, purge, purge, List.filter_filter]
  refine List.filter_congr fun e _ => ?_
  cases hat : e.2.expiresAt with
  | none => simp [StoredRecord.hasExpired, hat]
  | some at_ =>
    simp only [StoredRecord.hasExpired, hat, Option.any_some]
    by_cases hgone : at_ ≤ now'
    · simp [hgone]
    · have hlater : ¬at_ ≤ now := fun hle => hgone (Int.le_trans hle h)
      simp [hgone, hlater]

theorem purge_sorted (now : Instant) (h : Ordered.Sorted rs) : Ordered.Sorted (rs.purge now) :=
  h.filter _

/-- A change that stores nothing expired commutes with a purge. -/
theorem change_purge (h : rs.WellFormed) (d : Digest) {c : Change} (hc : c.IsLive now) :
    (rs.purge now).change d c = (rs.change d c).purge now := by
  have hsorted := purge_sorted now h.sorted
  cases c with
  | keep => rfl
  | remove =>
    refine (hsorted.erase d).ext (purge_sorted now (h.sorted.erase d)) fun k => ?_
    simp only [change]
    rw [Ordered.find?_erase hsorted, find?_purge h.sorted, find?_purge (h.sorted.erase d),
      live?, live?, Ordered.find?_erase h.sorted]
    split <;> rfl
  | store r =>
    refine (hsorted.insert d r).ext (purge_sorted now (h.sorted.insert d r)) fun k => ?_
    simp only [change]
    rw [Ordered.find?_insert, find?_purge h.sorted, find?_purge (h.sorted.insert d r),
      live?, live?, Ordered.find?_insert]
    split
    · exact (Option.filter_some_pos hc).symm
    · rfl

/-- To remove what is not there, or has expired, is a part of a purge. -/
theorem remove_purge (h : rs.WellFormed) {d : Digest} (hd : rs.live? now d = none) :
    (rs.change d .remove).purge now = rs.purge now := by
  rw [← change_purge h d (show Change.remove.IsLive now from trivial)]
  exact Ordered.erase_of_find? (purge_sorted now h.sorted) ((find?_purge h.sorted d).trans hd)

/-- A check for expiry that is made twice is made once. -/
theorem filter_live_purge (now : Instant) (rs : Records) (p : Digest × StoredRecord → Bool) :
    (rs.purge now).filter (fun e => e.2.isLive now && p e) =
      rs.filter fun e => e.2.isLive now && p e := by
  rw [purge_eq_live, live, List.filter_filter]
  refine List.filter_congr fun e _ => ?_
  cases e.2.isLive now <;> simp

theorem selected_purge (d : Option Digest) (sel : Selection) :
    ((rs.purge now).behind d).selected now sel = (rs.behind d).selected now sel := by
  have hall := filter_live_purge now rs fun e =>
    e.2.isIn sel.set && e.2.passes sel.filter
  cases d with
  | none => simpa only [behind, selected, Bool.and_assoc] using hall
  | some d =>
    simp only [behind, selected, purge_eq_live, live, List.filter_filter]
    refine List.filter_congr fun e _ => ?_
    cases e.2.isLive now <;> simp

end Records

/-! ## Jobs -/

namespace JobRequest

variable {request : JobRequest} {now : Instant} {rs : Records}

theorem candidates_purge (request : JobRequest) (now : Instant) (rs : Records) :
    request.candidates now (rs.purge now) = request.candidates now rs := by
  rw [candidates, candidates, Records.filter_live_purge now rs fun e =>
    e.2.isIn request.selection.set]

theorem visit_purge (h : rs.WellFormed) (d : Digest) :
    request.visit now d (rs.purge now) =
      (request.visit now d rs).map fun p => (p.1.purge now, p.2) := by
  unfold visit
  rw [Records.live?_purge h.sorted]
  cases hr : rs.live? now d with
  | none => rfl
  | some r =>
    simp only []
    split
    · cases hc : Cell.applyJob request.ops r with
      | error e => rfl
      | ok c =>
        have hlive := Cell.applyJob_isLive (Records.live?_isLive r hr) hc
        simp only [Except.map, Records.change_purge h d hlive]
    · rfl

theorem visitAll_purge (h : rs.WellFormed) (ds : List Digest) (changed : Nat) :
    request.visitAll now ds (rs.purge now) changed =
      ((request.visitAll now ds rs changed).1.purge now,
        (request.visitAll now ds rs changed).2) := by
  induction ds generalizing rs changed with
  | nil => rfl
  | cons d rest ih =>
    unfold visitAll
    rw [visit_purge h]
    cases hv : request.visit now d rs with
    | error e => rfl
    | ok p =>
      obtain ⟨rs', hit⟩ := p
      exact ih (visit_wellFormed h hv) _

end JobRequest

/-! ## Stores -/

namespace Store

variable {s : Store} {now : Instant}

/-- The store without the records that have expired. -/
def purge (now : Instant) (s : Store) : Store :=
  { s with spaces := s.spaces.map fun e => (e.1, e.2.purge now) }

theorem purge_purge {now' : Instant} (h : now ≤ now') (s : Store) :
    (s.purge now).purge now' = s.purge now' := by
  simp only [purge, List.map_map, Store.mk.injEq, true_and, and_true]
  exact List.map_congr_left fun e _ => Prod.ext rfl (Records.purge_purge h e.2)

theorem access_purge (s : Store) (now : Instant) : (s.purge now).access = s.access := rfl

theorem accessRead_purge (s : Store) (now : Instant) :
    (s.purge now).accessRead = s.accessRead := rfl

theorem space?_purge (s : Store) (now : Instant) (ns : String) :
    (s.purge now).space? ns = (s.space? ns).map (·.purge now) :=
  Ordered.find?_map (Records.purge now) ns s.spaces

theorem space_purge (s : Store) (now : Instant) (ns : String) :
    (s.purge now).space ns = (s.space ns).map (·.purge now) := by
  rw [space, space, space?_purge]
  cases s.space? ns <;> rfl

theorem setSpace_purge (s : Store) (now : Instant) (ns : String) (rs : Records) :
    (s.purge now).setSpace ns (rs.purge now) = (s.setSpace ns rs).purge now := by
  simp only [purge, setSpace, Ordered.insert_map]

/-! ### Reads -/

theorem get_purge (h : s.WellFormed) (address : Address) (options : ReadOptions) :
    (s.purge now).get now address options = s.get now address options := by
  unfold get
  rw [accessRead_purge, space_purge]
  cases hrs : s.space address.ns with
  | error e => rfl
  | ok rs =>
    simp only [Except.map, bind, Except.bind, Records.live?_purge (h.space hrs).sorted]

theorem exists_purge (h : s.WellFormed) (address : Address) (filter : Option Expression) :
    (s.purge now).exists_ now address filter = s.exists_ now address filter := by
  unfold exists_
  rw [accessRead_purge, space_purge]
  cases hrs : s.space address.ns with
  | error e => rfl
  | ok rs =>
    simp only [Except.map, bind, Except.bind, Records.live?_purge (h.space hrs).sorted]

theorem scan_purge (s : Store) (now : Instant) (request : ScanRequest) :
    (s.purge now).scan now request = s.scan now request := by
  unfold scan
  rw [accessRead_purge, space_purge]
  cases s.space request.selection.ns with
  | error e => rfl
  | ok rs => simp only [Except.map, bind, Except.bind, Records.selected_purge]

theorem count_purge (s : Store) (now : Instant) (ns : String) :
    (s.purge now).count now ns = s.count now ns := by
  rw [count, count, space?_purge]
  cases s.space? ns with
  | none => rfl
  | some rs => simp only [Option.map_some, Records.live_purge]

theorem respond_purge (s : Store) (now : Instant) (node command : String) :
    (s.purge now).respond now node command = s.respond now node command := by
  have hnames : (s.purge now).spaces.map (·.1) = s.spaces.map (·.1) := by
    simp [purge]
  have hcounts : (s.purge now).spaces.map (fun e => (e.2.live now).length) =
      s.spaces.map fun e => (e.2.live now).length := by
    simp [purge, Records.live_purge]
  have hstatistics : (s.purge now).statistics now = s.statistics now := by
    rw [statistics, statistics, hcounts]
    rfl
  have hspace : ∀ ns, (s.purge now).spaceInfo now ns = s.spaceInfo now ns := by
    intro ns
    rw [spaceInfo, spaceInfo, space?_purge]
    cases s.space? ns with
    | none => rfl
    | some rs => simp only [Option.map_some, Records.live_purge]
  unfold respond
  simp only [hnames, hstatistics, hspace]

theorem info_purge (s : Store) (now : Instant) (node : Option String) (commands : List String) :
    (s.purge now).info now node commands = s.info now node commands := by
  have htarget : (s.purge now).target node = s.target node := rfl
  have hfault : (s.purge now).fault = s.fault := rfl
  simp only [info, htarget, hfault, respond_purge]

/-! ### Writes -/

theorem write_purge {α : Type} {address : Address}
    {decide : Option StoredRecord → Except StoreError (α × Change)} (h : s.WellFormed)
    (hd : ∀ live a c, (∀ r ∈ live, r.isLive now) → decide live = .ok (a, c) → c.IsLive now) :
    (s.purge now).write now address decide =
      ((s.write now address decide).1, (s.write now address decide).2.purge now) := by
  unfold write
  rw [access_purge, space_purge]
  cases s.access with
  | error e => rfl
  | ok doubt =>
    cases hrs : s.space address.ns with
    | error e => rfl
    | ok rs =>
      simp only [Except.map, Records.live?_purge (h.space hrs).sorted]
      cases hc : decide (rs.live? now address.digest) with
      | error e => rfl
      | ok p =>
        have hlive := hd _ p.1 p.2 Records.live?_isLive hc
        simp only [Records.change_purge (h.space hrs) address.digest hlive, setSpace_purge]

/-- To delete what is not there, or has expired, is a part of a purge. -/
theorem delete_missing (h : s.WellFormed) {address : Address} {options : WriteOptions}
    (hmissing : (s.delete now address options).1 = .ok false) :
    (s.delete now address options).2.purge now = s.purge now := by
  unfold delete at hmissing ⊢
  rcases s.write_cases now address (Cell.delete options) with
    ⟨e, hwrite⟩ | ⟨doubt, rs, a, c, -, hrs, hc, hwrite⟩
  · rw [hwrite]
  · obtain ⟨rfl, ha, -⟩ := Cell.delete_cases hc
    rw [hwrite] at hmissing ⊢
    have hnone : rs.live? now address.digest = none := by
      cases doubt with
      | true => cases hmissing
      | false =>
        cases hmissing
        simpa using ha.symm
    have hsame : s.setSpace address.ns rs = s := by
      rw [setSpace, Ordered.insert_of_find? h.sorted hrs]
    simp only []
    rw [← setSpace_purge, Records.remove_purge (h.space? hrs) hnone, setSpace_purge, hsame]

/-! ### Jobs -/

theorem startJob_purge (s : Store) (now : Instant) (request : JobRequest) :
    (s.purge now).startJob now request =
      ((s.startJob now request).1, (s.startJob now request).2.purge now) := by
  have hcheck : (s.purge now).checkJob request = s.checkJob request := by
    unfold checkJob
    rw [accessRead_purge, space_purge]
    cases s.space request.selection.ns <;> rfl
  unfold startJob
  rw [hcheck]
  cases s.checkJob request with
  | error e => rfl
  | ok _ =>
    have hroom : (((s.purge now).prepareJob now).pool.queue.length <
        ((s.purge now).prepareJob now).settings.maxQueuedJobs) =
          ((s.prepareJob now).pool.queue.length < (s.prepareJob now).settings.maxQueuedJobs) := rfl
    simp only [hroom]
    by_cases h : (s.prepareJob now).pool.queue.length < (s.prepareJob now).settings.maxQueuedJobs
    · simp only [if_pos h]
      rfl
    · simp only [if_neg h]
      rfl

theorem stepBatch_purge (s : Store) (a : ActiveJob) (left : List Digest) {rs : Records}
    (h : rs.WellFormed) :
    (s.purge now).stepBatch now a left (rs.purge now) = (s.stepBatch now a left rs).purge now := by
  have hsize : (s.purge now).batchSize = s.batchSize := rfl
  simp only [stepBatch, hsize, JobRequest.visitAll_purge h, setSpace_purge]
  split <;> rfl

theorem stepJob_purge (h : s.WellFormed) (id : Nat) :
    (s.purge now).stepJob now id = (s.stepJob now id).purge now := by
  have hactive : (s.purge now).pool.active = s.pool.active := rfl
  unfold stepJob
  rw [hactive]
  cases s.pool.active.find? (·.job.id == id) with
  | none => rfl
  | some a =>
    simp only [space_purge]
    cases hrs : s.space a.job.request.selection.ns with
    | error e => rfl
    | ok rs =>
      simp only [Except.map]
      cases a.left with
      | none =>
        simp only [JobRequest.candidates_purge]
        rfl
      | some left =>
        cases left with
        | nil => rfl
        | cons d rest => exact stepBatch_purge s a (d :: rest) (h.space hrs)

end Store

theorem WriteCall.run_purge {w : WriteCall} {now : Instant} {s : Store} (h : s.WellFormed) :
    w.run now (s.purge now) = ((w.run now s).1, (w.run now s).2.purge now) := by
  rw [run_eq, run_eq]
  split
  · rfl
  · exact Store.write_purge h fun _ _ _ hlive hc => decide_isLive hlive hc

end RecordService
