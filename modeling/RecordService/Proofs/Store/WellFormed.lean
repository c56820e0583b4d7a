import RecordService.Proofs.Store.Cell
import RecordService.Proofs.Store.ResumeToken
import RecordService.Store.Job

/-!
# Well-formed stores

The records of a namespace stand in digest order, each digest once, and the bins of a record in
name order, each name once. Every write keeps it so: what `Cell` decides on has bins in order
(`Change.WellFormed`) if the live record that it decides by has.

* `Records.WellFormed`, `Store.WellFormed`: the invariant.
* `Cell.put_wellFormed`, `Cell.delete_wellFormed`, `Cell.operate_wellFormed`,
  `Cell.applyJob_wellFormed`: what a write decides on.
* `Store.write_wellFormed`: a write keeps the invariant, whatever decides on it.
* `JobRequest.visitAll_keeps`: the batch of a job keeps what each of its changes keeps.
  `JobRequest.visitAll_wellFormed`: so it keeps the invariant.
-/

namespace RecordService

/-! ## Bins -/

namespace Operation

theorem store_sorted {bins : Bins} (h : Ordered.Sorted bins) (bin : String) (v : Value) :
    Ordered.Sorted (store bin v bins) := by
  unfold store
  split
  · exact h.erase bin
  · exact h.insert bin v

theorem find?_store {bins : Bins} (h : Ordered.Sorted bins) (bin : String) (v : Value)
    (name : String) :
    Ordered.find? name (store bin v bins) =
      if name = bin then (some v).filter (!·.isNull) else Ordered.find? name bins := by
  rw [store]
  cases hnull : v.isNull with
  | true => rw [if_pos rfl, Ordered.find?_erase h, Option.filter_some_neg (by simp [hnull])]
  | false =>
    rw [if_neg Bool.false_ne_true, Ordered.find?_insert, Option.filter_some_pos (by simp [hnull])]

theorem apply_sorted {p q : Progress} (h : Ordered.Sorted p.bins) {op : Operation}
    (hq : apply p op = .ok q) : Ordered.Sorted q.bins := by
  cases op with
  | put bin v => cases hq; exact store_sorted h bin v
  | add bin v =>
    obtain ⟨w, -, rfl⟩ := map_eq_ok_iff.mp hq
    exact h.insert bin w
  | append bin text =>
    obtain ⟨w, -, rfl⟩ := map_eq_ok_iff.mp hq
    exact h.insert bin w
  | prepend bin text =>
    obtain ⟨w, -, rfl⟩ := map_eq_ok_iff.mp hq
    exact h.insert bin w
  | deleteBin bin => cases hq; exact h.erase bin
  | touch => cases hq; exact h
  | read bin =>
    simp only [apply] at hq
    split at hq <;> cases hq <;> exact h
  | get => cases hq; exact h

theorem applyFrom_sorted {ops : List Operation} {p q : Progress} (h : Ordered.Sorted p.bins)
    (hq : applyFrom p ops = .ok q) : Ordered.Sorted q.bins := by
  induction ops generalizing p with
  | nil => cases hq; exact h
  | cons op rest ih =>
    obtain ⟨p', hp, hq⟩ := bind_eq_ok_iff.mp hq
    exact ih (apply_sorted h hp) hq

end Operation

/-! ## One record -/

/-- What is stored has its bins in order. -/
def Change.WellFormed : Change → Prop
  | .keep | .remove => True
  | .store r => Ordered.Sorted r.bins

namespace Cell

theorem merge_sorted {bins : Bins} (h : Ordered.Sorted bins) (given : Bins) :
    Ordered.Sorted (merge bins given) := by
  unfold merge
  induction given generalizing bins with
  | nil => exact h
  | cons e rest ih => exact ih (Operation.store_sorted h e.1 e.2)

theorem putBins_sorted {live : Option StoredRecord} (h : ∀ r ∈ live, Ordered.Sorted r.bins)
    (mode : WriteMode) (given : Bins) : Ordered.Sorted (putBins live mode given) := by
  unfold putBins
  split
  · refine merge_sorted ?_ given
    split
    · exact List.Pairwise.nil
    · exact h _ rfl
  · exact merge_sorted List.Pairwise.nil given

theorem put_wellFormed {now : Instant} {address : Address} {given : Bins}
    {options : WriteOptions} {live : Option StoredRecord} {a : Unit} {c : Change}
    (h : ∀ r ∈ live, Ordered.Sorted r.bins)
    (hc : put now address given options live = .ok (a, c)) : c.WellFormed := by
  obtain ⟨-, ⟨-, rfl⟩ | ⟨-, rfl⟩⟩ := put_cases hc
  · trivial
  · exact putBins_sorted h options.mode given

theorem delete_wellFormed {options : WriteOptions} {live : Option StoredRecord} {a : Bool}
    {c : Change} (hc : delete options live = .ok (a, c)) : c.WellFormed := by
  obtain ⟨rfl, -⟩ := delete_cases hc
  trivial

theorem operate_wellFormed {now : Instant} {address : Address} {d : Digest}
    {ops : List Operation} {options : WriteOptions} {live : Option StoredRecord} {a : Record}
    {c : Change} (h : ∀ r ∈ live, Ordered.Sorted r.bins)
    (hc : operate now address d ops options live = .ok (a, c)) : c.WellFormed := by
  have hbefore : Ordered.Sorted (live.getD (fresh address)).bins := by
    cases live with
    | none => exact List.Pairwise.nil
    | some r => exact h r rfl
  obtain ⟨-, done, hdone, ⟨-, rfl⟩ | ⟨-, -, rfl⟩ | ⟨-, -, rfl⟩⟩ := operate_cases hc
  · trivial
  · trivial
  · exact Operation.applyFrom_sorted hbefore hdone

theorem applyJob_wellFormed {ops : List Operation} {r : StoredRecord} {c : Change}
    (h : Ordered.Sorted r.bins) (hc : applyJob ops r = .ok c) : c.WellFormed := by
  obtain ⟨done, hdone, ⟨-, rfl⟩ | ⟨-, rfl⟩⟩ := applyJob_cases hc
  · trivial
  · exact Operation.applyFrom_sorted h hdone

end Cell

/-! ## The records of a namespace -/

/-- The records stand in digest order, and the bins of each in name order. -/
structure Records.WellFormed (rs : Records) : Prop where
  sorted : Ordered.Sorted rs
  bins : ∀ e ∈ rs, Ordered.Sorted e.2.bins

namespace Records

variable {rs : Records}

theorem WellFormed.nil : WellFormed [] := ⟨List.Pairwise.nil, fun _ h => nomatch h⟩

theorem mem_of_live? {now : Instant} {d : Digest} {r : StoredRecord}
    (h : rs.live? now d = some r) : (d, r) ∈ rs :=
  Ordered.mem_of_find? (Option.filter_eq_some_iff.mp h).1

theorem WellFormed.live_bins (h : rs.WellFormed) (now : Instant) (d : Digest) :
    ∀ r ∈ rs.live? now d, Ordered.Sorted r.bins :=
  fun _ hr => h.bins _ (mem_of_live? hr)

theorem WellFormed.change (h : rs.WellFormed) (d : Digest) {c : Change} (hc : c.WellFormed) :
    (rs.change d c).WellFormed := by
  cases c with
  | keep => exact h
  | remove =>
    exact ⟨h.sorted.erase d, fun e he => h.bins e ((Ordered.erase_sublist d rs).subset he)⟩
  | store r =>
    refine ⟨h.sorted.insert d r, fun e he => ?_⟩
    rcases Ordered.mem_insert he with rfl | he
    · exact hc
    · exact h.bins e he

end Records

namespace JobRequest

variable {now : Instant} {request : JobRequest} {rs rs' : Records} {d : Digest} {hit : Bool}

section

variable {K : Records → Prop} (hchange : ∀ rs d r c, K rs → rs.live? now d = some r →
  Cell.applyJob request.ops r = .ok c → K (rs.change d c))

include hchange

theorem visit_keeps (h : K rs) (hv : request.visit now d rs = .ok (rs', hit)) : K rs' := by
  unfold visit at hv
  split at hv
  · cases hv; exact h
  · rename_i r hr
    split at hv
    · obtain ⟨c, hc, hv⟩ := map_eq_ok_iff.mp hv
      cases hv
      exact hchange rs d r c h hr hc
    · cases hv; exact h

/-- What each change that a job makes keeps, a pass over digests keeps. -/
theorem visitAll_keeps (h : K rs) (ds : List Digest) (changed : Nat) :
    K (request.visitAll now ds rs changed).1 := by
  induction ds generalizing rs changed with
  | nil => exact h
  | cons d rest ih =>
    unfold visitAll
    split
    · exact h
    · rename_i rs' hit hv
      exact ih (visit_keeps hchange h hv) _

end

theorem change_wellFormed (now : Instant) (request : JobRequest) (rs : Records) (d : Digest)
    (r : StoredRecord) (c : Change) (h : rs.WellFormed) (hr : rs.live? now d = some r)
    (hc : Cell.applyJob request.ops r = .ok c) : (rs.change d c).WellFormed :=
  h.change d (Cell.applyJob_wellFormed (h.live_bins now d r hr) hc)

theorem visit_wellFormed (h : rs.WellFormed) (hv : request.visit now d rs = .ok (rs', hit)) :
    rs'.WellFormed := visit_keeps (change_wellFormed now request) h hv

theorem visitAll_wellFormed (h : rs.WellFormed) (ds : List Digest) (changed : Nat) :
    (request.visitAll now ds rs changed).1.WellFormed :=
  visitAll_keeps (change_wellFormed now request) h ds changed

end JobRequest

/-! ## Stores -/

/-- The namespaces stand in the order of their names, and the records of each are well-formed. -/
structure Store.WellFormed (s : Store) : Prop where
  sorted : Ordered.Sorted s.spaces
  records : ∀ e ∈ s.spaces, Records.WellFormed e.2

namespace Store

variable {s : Store}

theorem empty_wellFormed (settings : StoreSettings) : (empty settings).WellFormed := by
  refine ⟨Ordered.sorted_ofEntries _, fun e he => ?_⟩
  obtain ⟨ns, -, rfl⟩ := List.mem_map.mp (Ordered.mem_ofEntries he)
  exact .nil

theorem space_eq_ok_iff {ns : String} {rs : Records} :
    s.space ns = .ok rs ↔ s.space? ns = some rs := by
  unfold Store.space
  cases s.space? ns <;> simp

theorem WellFormed.space? {ns : String} {rs : Records} (h : s.WellFormed)
    (hs : s.space? ns = some rs) : rs.WellFormed :=
  h.records _ (Ordered.mem_of_find? hs)

theorem WellFormed.space {ns : String} {rs : Records} (h : s.WellFormed)
    (hs : s.space ns = .ok rs) : rs.WellFormed :=
  h.space? (space_eq_ok_iff.mp hs)

theorem WellFormed.setSpace (h : s.WellFormed) (ns : String) {rs : Records}
    (hrs : rs.WellFormed) : (s.setSpace ns rs).WellFormed := by
  refine ⟨h.sorted.insert ns rs, fun e he => ?_⟩
  rcases Ordered.mem_insert he with rfl | he
  · exact hrs
  · exact h.records e he

/-- A write keeps the invariant if what it decides on does. -/
theorem write_wellFormed {α : Type} {now : Instant} {address : Address}
    {decide : Option StoredRecord → Except StoreError (α × Change)} (h : s.WellFormed)
    (hd : ∀ live a c, (∀ r ∈ live, Ordered.Sorted r.bins) → decide live = .ok (a, c) →
      c.WellFormed) : (s.write now address decide).2.WellFormed := by
  unfold write
  split
  · exact h
  · split
    · exact h
    · rename_i rs hrs
      split
      · exact h
      · rename_i a c hc
        have hwf := h.space hrs
        exact h.setSpace address.ns
          (hwf.change address.digest (hd _ a c (hwf.live_bins now address.digest) hc))

theorem put_wellFormed (h : s.WellFormed) (now : Instant) (address : Address) (bins : Bins)
    (options : WriteOptions) : (s.put now address bins options).2.WellFormed :=
  write_wellFormed h fun _ _ _ hlive hc => Cell.put_wellFormed hlive hc

theorem delete_wellFormed (h : s.WellFormed) (now : Instant) (address : Address)
    (options : WriteOptions) : (s.delete now address options).2.WellFormed :=
  write_wellFormed h fun _ _ _ _ hc => Cell.delete_wellFormed hc

theorem operate_wellFormed (h : s.WellFormed) (now : Instant) (address : Address)
    (ops : List Operation) (options : WriteOptions) :
    (s.operate now address ops options).2.WellFormed := by
  unfold operate
  split
  · exact h
  · exact write_wellFormed h fun _ _ _ hlive hc => Cell.operate_wellFormed hlive hc

/-- Only the namespaces of a store count. -/
theorem WellFormed.of_spaces {t : Store} (h : s.WellFormed) (ht : t.spaces = s.spaces) :
    t.WellFormed := ⟨ht ▸ h.sorted, ht ▸ h.records⟩

theorem startJob_spaces (now : Instant) (request : JobRequest) (s : Store) :
    (s.startJob now request).2.spaces = s.spaces := by
  unfold startJob
  split
  · rfl
  · simp only []
    split <;> rfl

theorem stepBatch_wellFormed (h : s.WellFormed) (now : Instant) (a : ActiveJob)
    (left : List Digest) {rs : Records} (hrs : rs.WellFormed) :
    (s.stepBatch now a left rs).WellFormed := by
  have hbatch : (a.job.request.visitAll now (left.take s.batchSize) rs 0).1.WellFormed :=
    JobRequest.visitAll_wellFormed hrs _ 0
  unfold stepBatch
  simp only []
  split
  · exact (h.setSpace _ hbatch).of_spaces rfl
  · exact (h.setSpace _ hbatch).of_spaces rfl

theorem stepJob_wellFormed (h : s.WellFormed) (now : Instant) (id : Nat) :
    (s.stepJob now id).WellFormed := by
  unfold stepJob
  split
  · exact h
  · rename_i a _
    split
    · exact h.of_spaces rfl
    · rename_i rs hrs
      split
      · exact h.of_spaces rfl
      · exact h.of_spaces rfl
      · exact stepBatch_wellFormed h now a _ (h.space hrs)

end Store
end RecordService
