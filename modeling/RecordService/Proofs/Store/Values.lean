import RecordService.Proofs.Store.Expiry
import RecordService.Proofs.Store.Filed

/-!
# The values of a store

A value in the bins of a record has been put there by a write or by an operation, or an operation
has made it of others. So what holds of the values that are put and of those that are made holds of
all values of a store, whatever becomes of it, and of all that are told of it.

* `Operation.PutsOnly`: what holds of the values that operations put.
  `Operation.applyAll_holds`: it holds of what they leave and of what they report.
* `Change.Holds`, `Cell.put_holds`, `Cell.operate_holds`, `Cell.applyJob_holds`: writes and jobs.
* `Store.Holds`: what holds of the values in all records, and of those that jobs are going to put.
  `Store.Holds.write`, `startJob`, `dispatch`, `stepJob`: it is kept.
* `Store.Holds.get`, `scan`, `operate_answer`: it holds of what is told.
-/

namespace RecordService

variable {P Q : Value → Prop}

/-! ## Operations -/

namespace Operation

variable {p q : Progress} {op : Operation} {ops : List Operation} {bins : Bins}

/-- The values that operations put have a property. -/
def PutsOnly (P : Value → Prop) (ops : List Operation) : Prop := ∀ bin v, put bin v ∈ ops → P v

/-- What an operation reports was reported before, or it is in the bins. -/
theorem apply_reports (h : apply p op = .ok q) : ∀ e ∈ q.results, e ∈ p.results ∨ e ∈ p.bins := by
  intro e he
  cases op with
  | put | deleteBin | touch =>
    cases h
    exact .inl he
  | add | append | prepend =>
    obtain ⟨_, -, rfl⟩ := map_eq_ok_iff.mp h
    exact .inl he
  | read bin =>
    simp only [apply] at h
    split at h
    · rename_i v hv
      cases h
      rcases Ordered.mem_insert he with rfl | he
      · exact .inr (Ordered.mem_of_find? hv)
      · exact .inl he
    · cases h
      exact .inl he
  | get =>
    cases h
    exact (Ordered.mem_foldl_insert he).symm

theorem applyFrom_reports_holds (hmade : ∀ v, v.isMade → P v) (hops : PutsOnly P ops)
    (hbins : ∀ e ∈ p.bins, P e.2) (hresults : ∀ e ∈ p.results, P e.2)
    (h : applyFrom p ops = .ok q) : ∀ e ∈ q.results, P e.2 := by
  induction ops generalizing p with
  | nil =>
    cases h
    exact hresults
  | cons op rest ih =>
    obtain ⟨p', hp', h⟩ := bind_eq_ok_iff.mp h
    refine ih (fun bin v hmem => hops bin v (List.mem_cons_of_mem _ hmem)) ?_ ?_ h
    · exact apply_holds hmade (fun bin v hop _ => hops bin v (hop ▸ List.mem_cons_self)) hbins hp'
    · exact fun e he => (apply_reports hp' e he).elim (hresults e) (hbins e)

/-- A property of the values in bins, of those that operations put and of those that they make is
one of all values that they leave and of all that they report. -/
theorem applyAll_holds (hmade : ∀ v, v.isMade → P v) (hops : PutsOnly P ops)
    (hbins : ∀ e ∈ bins, P e.2) (h : applyAll ops bins = .ok q) :
    (∀ e ∈ q.bins, P e.2) ∧ ∀ e ∈ q.results, P e.2 :=
  ⟨applyFrom_holds hmade (fun bin v hmem _ => hops bin v hmem) hbins h,
    applyFrom_reports_holds hmade hops hbins (List.forall_mem_nil _) h⟩

end Operation

/-! ## One record -/

/-- The values in the record have a property. -/
def StoredRecord.Holds (P : Value → Prop) (r : StoredRecord) : Prop := ∀ e ∈ r.bins, P e.2

/-- The values in what is stored have a property. -/
def Change.Holds (P : Value → Prop) : Change → Prop
  | .keep | .remove => True
  | .store r => r.Holds P

namespace Cell

variable {now : Instant} {address : Address} {d : Digest} {options : WriteOptions}
  {ops : List Operation} {given : Bins} {live : Option StoredRecord} {c : Change}

theorem put_holds {a : Unit} (hgiven : ∀ e ∈ given, P e.2) (hlive : ∀ r ∈ live, r.Holds P)
    (h : put now address given options live = .ok (a, c)) : c.Holds P := by
  obtain ⟨-, ⟨-, rfl⟩ | ⟨-, rfl⟩⟩ := put_cases h
  · trivial
  · exact putBins_holds (fun e he _ => hgiven e he) hlive options.mode

theorem delete_holds {a : Bool} (h : delete options live = .ok (a, c)) : c.Holds P := by
  obtain ⟨rfl, -⟩ := delete_cases h
  trivial

/-- The answer to an operate tells what its operations have reported. -/
theorem operate_answer {a : Record} (h : operate now address d ops options live = .ok (a, c)) :
    ∃ done, Operation.applyAll ops (live.getD (fresh address)).bins = .ok done ∧
      a.bins = done.results := by
  obtain ⟨_, -, h⟩ := bind_eq_ok_iff.mp h
  simp only [] at h
  split at h
  · cases h
  · rename_i done hdone
    refine ⟨done, hdone, ?_⟩
    split at h <;> cases h <;> rfl

section

variable (hmade : ∀ v, v.isMade → P v) (hops : Operation.PutsOnly P ops)

include hmade hops

theorem operate_holds {a : Record} (hlive : ∀ r ∈ live, r.Holds P)
    (h : operate now address d ops options live = .ok (a, c)) :
    c.Holds P ∧ ∀ e ∈ a.bins, P e.2 := by
  have hbefore : ∀ e ∈ (live.getD (fresh address)).bins, P e.2 := by
    cases live with
    | none => exact List.forall_mem_nil _
    | some r => exact hlive r rfl
  constructor
  · obtain ⟨-, done, hdone, ⟨-, rfl⟩ | ⟨-, -, rfl⟩ | ⟨-, -, rfl⟩⟩ := operate_cases h
    · trivial
    · trivial
    · exact (Operation.applyAll_holds hmade hops hbefore hdone).1
  · obtain ⟨done, hdone, hanswer⟩ := operate_answer h
    rw [hanswer]
    exact (Operation.applyAll_holds hmade hops hbefore hdone).2

theorem applyJob_holds {r : StoredRecord} (hr : r.Holds P) (h : applyJob ops r = .ok c) :
    c.Holds P := by
  obtain ⟨done, hdone, ⟨-, rfl⟩ | ⟨-, rfl⟩⟩ := applyJob_cases h
  · trivial
  · exact (Operation.applyAll_holds hmade hops hr hdone).1

end

end Cell

/-! ## The records of a namespace -/

theorem Bins.mem_of_project {bins : Bins} {names : Option (List String)} {e : String × Value}
    (h : e ∈ bins.project names) : e ∈ bins := by
  cases names with
  | none => exact h
  | some names =>
    obtain ⟨n, -, hn⟩ := List.mem_filterMap.mp (Ordered.mem_ofEntries h)
    obtain ⟨v, hv, rfl⟩ := Option.map_eq_some_iff.mp hn
    exact Ordered.mem_of_find? hv

/-- The values in all records have a property. -/
def Records.Holds (P : Value → Prop) (rs : Records) : Prop := ∀ e ∈ rs, e.2.Holds P

namespace Records

variable {rs rs' : Records} {c : Change}

theorem Holds.live (h : rs.Holds P) (now : Instant) (d : Digest) :
    ∀ r ∈ rs.live? now d, r.Holds P := fun _ hr => h _ (mem_of_live? hr)

theorem Holds.change (h : rs.Holds P) (d : Digest) (hc : c.Holds P) : (rs.change d c).Holds P := by
  intro e he
  rcases mem_change he with he | ⟨r, rfl, rfl⟩
  · exact h e he
  · exact hc

end Records

theorem JobRequest.visitAll_holds {now : Instant} {request : JobRequest} {rs : Records}
    (hmade : ∀ v, v.isMade → P v) (hops : Operation.PutsOnly P request.ops) (hrs : rs.Holds P)
    (ds : List Digest) (changed : Nat) : (request.visitAll now ds rs changed).1.Holds P := by
  refine visitAll_keeps (fun rs d r c h hr hc => ?_) hrs ds changed
  exact h.change d (Cell.applyJob_holds hmade hops (h.live now d r hr) hc)

/-! ## Stores -/

/-- The values in all records, and those that the operations of waiting and running jobs put, have
a property. -/
structure Store.Holds (P : Value → Prop) (s : Store) : Prop where
  records : s.Each fun _ r => r.Holds P
  waiting : ∀ job ∈ s.pool.queue, Operation.PutsOnly P job.request.ops
  running : ∀ a ∈ s.pool.active, Operation.PutsOnly P a.job.request.ops

namespace Store.Holds

variable {s t : Store} {now : Instant}

theorem empty (settings : StoreSettings) (P : Value → Prop) : (Store.empty settings).Holds P where
  records := empty_each settings _
  waiting := List.forall_mem_nil _
  running := List.forall_mem_nil _

theorem mono (h : s.Holds P) (hPQ : ∀ v, P v → Q v) : s.Holds Q where
  records := fun ns rs hrs e he x hx => hPQ x.2 (h.records ns rs hrs e he x hx)
  waiting := fun job hjob bin v hv => hPQ v (h.waiting job hjob bin v hv)
  running := fun a ha bin v hv => hPQ v (h.running a ha bin v hv)

/-- Only the records and the jobs count. -/
theorem of_same (h : s.Holds P) (hspaces : s.spaces = t.spaces) (hpool : s.pool = t.pool) :
    t.Holds P where
  records := h.records.of_spaces hspaces
  waiting := hpool ▸ h.waiting
  running := hpool ▸ h.running

theorem space (h : s.Holds P) {ns : String} {rs : Records} (hrs : s.space? ns = some rs) :
    rs.Holds P := h.records ns rs hrs

theorem setSpace (h : s.Holds P) (ns : String) {rs : Records} (hrs : rs.Holds P) :
    (s.setSpace ns rs).Holds P where
  records := h.records.setSpace ns hrs
  waiting := h.waiting
  running := h.running

/-! ### Writes -/

section

variable {α : Type} {address : Address}
  {decide : Option StoredRecord → Except StoreError (α × Change)}

/-- A write keeps a property if what it decides on has it. -/
theorem write (h : s.Holds P)
    (hdecide : ∀ live a c, (∀ r ∈ live, r.Holds P) → decide live = .ok (a, c) → c.Holds P) :
    (s.write now address decide).2.Holds P := by
  rcases s.write_cases now address decide with ⟨e, hwrite⟩ | ⟨_, rs, a, c, -, hrs, hc, hwrite⟩
  · rw [hwrite]
    exact h
  · rw [hwrite]
    have hlive := (h.space hrs).live now address.digest
    exact h.setSpace _ ((h.space hrs).change _ (hdecide _ a c hlive hc))

theorem write_answer (h : s.Holds P) {a : α} (ha : (s.write now address decide).1 = .ok a) :
    ∃ live c, (∀ r ∈ live, r.Holds P) ∧ decide live = .ok (a, c) := by
  rcases s.write_cases now address decide with ⟨e, hwrite⟩ | ⟨doubt, rs, b, c, -, hrs, hc, hwrite⟩
  · rw [hwrite] at ha
    cases ha
  · rw [hwrite] at ha
    cases doubt with
    | true => cases ha
    | false =>
      cases ha
      exact ⟨_, c, (h.space hrs).live now address.digest, hc⟩

end

theorem put (h : s.Holds P) (now : Instant) (address : Address) {bins : Bins}
    (hbins : ∀ e ∈ bins, P e.2) (options : WriteOptions) :
    (s.put now address bins options).2.Holds P :=
  h.write fun _ _ _ => Cell.put_holds hbins

theorem delete (h : s.Holds P) (now : Instant) (address : Address) (options : WriteOptions) :
    (s.delete now address options).2.Holds P :=
  h.write fun _ _ _ _ => Cell.delete_holds

section

variable (hmade : ∀ v, v.isMade → P v) {ops : List Operation} (hops : Operation.PutsOnly P ops)

include hmade hops

theorem operate (h : s.Holds P) (now : Instant) (address : Address) (options : WriteOptions) :
    (s.operate now address ops options).2.Holds P := by
  unfold Store.operate
  split
  · exact h
  · exact h.write fun _ _ _ hlive hc => (Cell.operate_holds hmade hops hlive hc).1

theorem operate_answer (h : s.Holds P) {address : Address} {options : WriteOptions} {r : Record}
    (hr : (s.operate now address ops options).1 = .ok r) : ∀ e ∈ r.bins, P e.2 := by
  unfold Store.operate at hr
  split at hr
  · cases hr
  · obtain ⟨live, c, hlive, hc⟩ := h.write_answer hr
    exact (Cell.operate_holds hmade hops hlive hc).2

end

/-! ### Reads -/

theorem get (h : s.Holds P) {address : Address} {options : ReadOptions} {r : Record}
    (hr : s.get now address options = .ok r) : ∀ e ∈ r.bins, P e.2 := by
  obtain ⟨_, -, hr⟩ := bind_eq_ok_iff.mp hr
  obtain ⟨rs, hrs, hr⟩ := bind_eq_ok_iff.mp hr
  simp only [] at hr
  split at hr
  · cases hr
  · rename_i stored hstored
    obtain ⟨-, hr⟩ := error_or_eq_ok_iff.mp hr
    cases hr
    have hholds := (h.space (space_eq_ok_iff.mp hrs)).live now address.digest stored hstored
    exact fun e he => hholds e (Bins.mem_of_project he)

theorem scan (h : s.Holds P) {request : ScanRequest} {page : ScanPage}
    (hpage : s.scan now request = .ok page) : ∀ r ∈ page.records, ∀ e ∈ r.bins, P e.2 := by
  obtain ⟨rs, start, -, -, hrs, -, rfl⟩ := scan_eq_ok_iff.mp hpage
  intro r hr e he
  obtain ⟨stored, hstored, rfl⟩ := List.mem_map.mp hr
  obtain ⟨hbehind, -⟩ := Records.mem_selected.mp (List.mem_of_mem_take hstored)
  exact h.space hrs stored (Records.mem_behind.mp hbehind).1 e (Bins.mem_of_project he)

/-! ### Jobs -/

theorem startJob (h : s.Holds P) (now : Instant) {request : JobRequest}
    (hops : Operation.PutsOnly P request.ops) : (s.startJob now request).2.Holds P := by
  rcases s.startJob_inv now request with ⟨e, hs⟩ | ⟨reason, hs⟩ | hs
  · rw [hs]
    exact h
  · rw [hs]
    exact ⟨h.records, h.waiting, h.running⟩
  · rw [hs]
    refine ⟨h.records, fun job hjob => ?_, h.running⟩
    rcases List.mem_append.mp hjob with hjob | hjob
    · exact h.waiting job hjob
    · rw [List.mem_singleton.mp hjob]
      exact hops

theorem dispatch (h : s.Holds P) : s.dispatch.Holds P where
  records := h.records
  waiting := fun job hjob => h.waiting job (List.mem_of_mem_drop hjob)
  running := by
    intro a ha
    rcases List.mem_append.mp ha with ha | ha
    · exact h.running a ha
    · obtain ⟨job, hjob, rfl⟩ := List.mem_map.mp ha
      exact h.waiting job (List.mem_of_mem_take hjob)

theorem endJob (h : s.Holds P) (now : Instant) (id : Nat) (outcome : JobState) :
    (s.endJob now id outcome).Holds P where
  records := h.records
  waiting := h.waiting
  running := fun a ha => h.running a (List.mem_filter.mp ha).1

theorem noteJob (h : s.Holds P) {a : ActiveJob} (ha : Operation.PutsOnly P a.job.request.ops) :
    (s.noteJob a).Holds P where
  records := h.records
  waiting := h.waiting
  running := by
    intro b hb
    obtain ⟨c, hc, rfl⟩ := List.mem_map.mp hb
    split
    · exact ha
    · exact h.running c hc

theorem stepJob (h : s.Holds P) (hmade : ∀ v, v.isMade → P v) (now : Instant) (id : Nat) :
    (s.stepJob now id).Holds P := by
  rcases s.stepJob_inv now id with ⟨-, hs⟩ | ⟨a, hfound, -, ⟨reason, -, hs⟩ | ⟨rs, hrs, hcases⟩⟩
  · rw [hs]
    exact h
  · rw [hs]
    exact h.endJob now id _
  · have ha : Operation.PutsOnly P a.job.request.ops :=
      h.running a (List.mem_of_find?_eq_some hfound)
    rcases hcases with ⟨-, hs⟩ | ⟨-, hs⟩ | ⟨d, rest, -, hs⟩
    · rw [hs]
      exact h.noteJob ha
    · rw [hs]
      exact h.endJob now id _
    · -- Of all steps only a batch touches records.
      have hbatch : (a.job.request.visitAll now ((d :: rest).take s.batchSize) rs 0).1.Holds P :=
        JobRequest.visitAll_holds hmade ha (h.space hrs) _ 0
      rw [hs]
      unfold stepBatch
      simp only []
      split
      · exact (h.setSpace _ hbatch).endJob now _ _
      · exact (h.setSpace _ hbatch).noteJob ha

end Store.Holds

/-! ### Calls that bring no values -/

namespace StoreCall

/-- A call with no value in it: what is asked, what the store does by itself, and what is done to
its nodes. -/
def BringsNone : StoreCall → Prop
  | write _ | startJob _ => False
  | get .. | exists_ .. | scan _ | count _ | info .. | nodeNames | jobStatus _ | dispatch
  | stepJob _ | pause _ | node .. | fault _ => True

theorem serve_holds {s : Store} (h : s.Holds P) (hmade : ∀ v, v.isMade → P v) {call : StoreCall}
    (hcall : call.BringsNone) (now : Instant) : (call.serve now s).2.Holds P := by
  cases call with
  | write | startJob => exact hcall.elim
  | get | exists_ | scan | count | info | nodeNames | jobStatus => exact h
  | dispatch => exact h.dispatch
  | stepJob id => exact h.stepJob hmade now id
  | pause | node | fault => exact h.of_same rfl rfl

end StoreCall
end RecordService
