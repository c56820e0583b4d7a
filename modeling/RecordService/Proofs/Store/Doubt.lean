import RecordService.Proofs.Job.Operates
import RecordService.Proofs.Store.Cell
import RecordService.Proofs.Store.Expiry

/-!
# Calls that leave a write in doubt

A call that times out may leave it open whether a write was applied. All that refuses a call
before its write is certain, so doubt comes from one place only: the fault that keeps back the
answer of a write.

* `Certain`: a computation that fails, if it does, without doubt. `LeavesDoubt`: one that fails in
  doubt.
* `Store.access_eq_ok_true_iff`: when the answers of writes are kept back.
* `WriteCall.leavesDoubt_iff`: a write is in doubt if and only if its answer is kept back and it
  would else succeed.
* `WriteCall.run_reads`: operations that only report change nothing, whether in doubt or not.
* `StoreCall.inDoubt_iff`: no other call is ever in doubt.
-/

namespace RecordService

variable {α β : Type} {x : Except StoreError α}

/-- A computation of the store that fails, if it does, without leaving a write in doubt. -/
def Certain (x : Except StoreError α) : Prop := FailsOnly (·.inDoubt = false) x

/-- A computation of the store that fails and leaves a write in doubt. -/
def LeavesDoubt (x : Except StoreError α) : Prop := ∃ e, x = .error e ∧ e.inDoubt = true

theorem Certain.not_leavesDoubt (h : Certain x) : ¬LeavesDoubt x := by
  rintro ⟨e, he, hdoubt⟩
  rw [h e he] at hdoubt
  cases hdoubt

theorem leavesDoubt_map {f : α → β} : LeavesDoubt (x.map f) ↔ LeavesDoubt x := by
  cases x with
  | error e => exact exists_congr fun e' => and_congr_left' (by simp [Except.map])
  | ok a => exact iff_of_false nofun nofun

/-! ## The decisions on one record -/

namespace Cell

variable {live : Option StoredRecord} {options : WriteOptions}

theorem checkMode_certain (mode : WriteMode) (found : Bool) : Certain (checkMode mode found) := by
  cases mode <;> cases found <;> first | exact failsOnly_ok _ | exact failsOnly_error rfl

theorem checkGeneration_certain (expected : Option UInt32) (actual : UInt32) :
    Certain (checkGeneration expected actual) := by
  cases expected with
  | none => exact failsOnly_ok _
  | some g => exact .ite (fun _ => failsOnly_ok _) fun _ => failsOnly_error rfl

theorem put_certain (now : Instant) (address : Address) (given : Bins) (options : WriteOptions)
    (live : Option StoredRecord) : Certain (put now address given options live) := by
  refine FailsOnly.map (FailsOnly.bind (checkMode_certain _ _) fun _ => ?_)
  cases live with
  | some r => exact checkGeneration_certain _ _
  | none =>
    cases options.generation with
    | some g => exact failsOnly_error rfl
    | none => exact failsOnly_ok _

theorem delete_certain (options : WriteOptions) (live : Option StoredRecord) :
    Certain (delete options live) := by
  cases live with
  | none => exact failsOnly_ok _
  | some r => exact (checkGeneration_certain _ _).map

theorem checkOperate_certain (live : Option StoredRecord) (ops : List Operation)
    (options : WriteOptions) : Certain (checkOperate live ops options) := by
  refine .ite (fun _ => failsOnly_error rfl) fun _ => .bind (checkMode_certain _ _) fun _ => ?_
  cases live with
  | some r => exact checkGeneration_certain _ _
  | none => exact failsOnly_ok _

theorem operate_certain (now : Instant) (address : Address) (d : Digest) (ops : List Operation)
    (options : WriteOptions) (live : Option StoredRecord) :
    Certain (operate now address d ops options live) := by
  refine FailsOnly.bind (checkOperate_certain live ops options) fun _ => ?_
  simp only []
  cases Operation.applyAll ops (live.getD (fresh address)).bins with
  | error why => exact failsOnly_error rfl
  | ok done => exact .ite (fun _ => failsOnly_ok _) fun _ => failsOnly_ok _

end Cell

/-! ## What refuses a call -/

namespace Store

theorem access_certain (s : Store) : Certain s.access := by
  unfold access
  refine .ite (fun _ => failsOnly_error rfl) fun _ => ?_
  match s.fault with
  | none | some (.timeout true) => exact failsOnly_ok _
  | some .unavailable | some (.timeout false) => exact failsOnly_error rfl

/-- The answers of writes are kept back if the store can be reached and its fault says so. -/
theorem access_eq_ok_true_iff {s : Store} :
    s.access = .ok true ↔ s.Reachable ∧ s.fault = some (.timeout true) := by
  constructor
  · intro h
    have hup : s.Reachable := by
      unfold access at h
      split at h
      · cases h
      · rename_i hup
        by_cases hnodes : s.settings.nodes = []
        · exact .inl hnodes
        · simp only [Bool.and_eq_true, Bool.not_eq_true', List.isEmpty_eq_false_iff] at hup
          exact .inr (List.any_eq_true.mp (by simpa [hnodes] using hup))
    rw [access_of_reachable hup] at h
    refine ⟨hup, ?_⟩
    match hfault : s.fault with
    | some (.timeout true) => rfl
    | none | some .unavailable | some (.timeout false) => rw [hfault] at h; cases h
  · rintro ⟨hup, hfault⟩
    rw [access_of_reachable hup, hfault]

theorem accessRead_certain (s : Store) : Certain s.accessRead :=
  .bind s.access_certain fun _ => .ite (fun _ => failsOnly_error rfl) fun _ => failsOnly_ok _

theorem space_certain (s : Store) (ns : String) : Certain (s.space ns) := by
  unfold space
  cases s.space? ns with
  | none => exact failsOnly_error rfl
  | some rs => exact failsOnly_ok _

/-! ## Calls that write no record -/

theorem get_certain (s : Store) (now : Instant) (address : Address) (options : ReadOptions) :
    Certain (s.get now address options) := by
  refine .bind s.accessRead_certain fun _ => .bind (s.space_certain _) fun rs => ?_
  cases rs.live? now address.digest with
  | none => exact failsOnly_error rfl
  | some r => exact .ite (fun _ => failsOnly_error rfl) fun _ => failsOnly_ok _

theorem exists_certain (s : Store) (now : Instant) (address : Address)
    (filter : Option Expression) : Certain (s.exists_ now address filter) :=
  .bind s.accessRead_certain fun _ => .bind (s.space_certain _) fun _ => failsOnly_ok _

theorem digestOf_certain (token : Option String) : Certain (ResumeToken.digestOf token) := by
  cases token with
  | none => exact failsOnly_ok _
  | some token =>
    refine FailsOnly.map ?_
    unfold ResumeToken.digest
    repeat' split
    all_goals first | exact failsOnly_ok _ | exact failsOnly_error rfl

theorem scan_certain (s : Store) (now : Instant) (request : ScanRequest) :
    Certain (s.scan now request) :=
  .bind s.accessRead_certain fun _ => .ite (fun _ => failsOnly_error rfl) fun _ =>
    .bind (s.space_certain _) fun _ => .bind (digestOf_certain _) fun _ => failsOnly_ok _

theorem target_certain (s : Store) (node : Option String) : Certain (s.target node) := by
  cases node with
  | some name =>
    exact .ite (fun _ => failsOnly_error rfl) fun _ =>
      .ite (fun _ => failsOnly_error rfl) fun _ => failsOnly_ok _
  | none =>
    unfold target
    cases s.settings.nodes.find? s.isUp with
    | some name => exact failsOnly_ok _
    | none => exact failsOnly_error rfl

theorem info_certain (s : Store) (now : Instant) (node : Option String) (commands : List String) :
    Certain (s.info now node commands) :=
  .bind (s.target_certain node) fun _ =>
    .ite (fun _ => failsOnly_error rfl) fun _ => failsOnly_ok _

theorem nodeNames_certain (s : Store) : Certain s.nodeNames := s.accessRead_certain.map

theorem checkJob_certain (s : Store) (request : JobRequest) : Certain (s.checkJob request) :=
  .bind s.accessRead_certain fun _ => .bind (s.space_certain _) fun _ =>
    .ite (fun _ => failsOnly_error rfl) fun _ =>
      .ite (fun _ => failsOnly_error rfl) fun _ => failsOnly_ok _

/-- Whether a job is accepted or refused, that is certain. -/
theorem startJob_certain (s : Store) (now : Instant) (request : JobRequest) :
    Certain (s.startJob now request).1 := by
  have hcheck := s.checkJob_certain request
  unfold startJob
  cases hc : s.checkJob request with
  | error e => exact failsOnly_error (hcheck e hc)
  | ok =>
    simp only []
    split
    · exact failsOnly_ok _
    · exact failsOnly_error rfl

theorem jobStatus_certain (s : Store) (id : Nat) : Certain (s.jobStatus id) := by
  refine .bind s.accessRead_certain fun _ => ?_
  cases Ordered.find? id s.jobs with
  | some e => exact failsOnly_ok _
  | none => exact failsOnly_error rfl

end Store

/-! ## Writes -/

namespace WriteCall

variable {w : WriteCall} {now : Instant} {s : Store}

theorem decide_certain (w : WriteCall) (now : Instant) (live : Option StoredRecord) :
    Certain (w.decide now live) := by
  cases w with
  | put address bins options => exact (Cell.put_certain now address bins options live).map
  | delete address options => exact (Cell.delete_certain options live).map
  | operate address ops options =>
    exact (Cell.operate_certain now address address.digest ops options live).map

/-- A write whose answer is not kept back is certain. -/
theorem run_certain (w : WriteCall) (now : Instant) (h : s.access ≠ .ok true) :
    Certain (w.run now s).1 := by
  rw [run_eq]
  split
  · exact failsOnly_error rfl
  · cases haccess : s.access with
    | error e =>
      rw [Store.write_of_refused haccess]
      exact failsOnly_error (s.access_certain e haccess)
    | ok doubt =>
      obtain rfl : doubt = false := by
        cases doubt with
        | true => exact absurd haccess h
        | false => rfl
      have hverdict : Certain (s.verdict now w.address (w.decide now)) :=
        .bind (s.space_certain _) fun rs => (w.decide_certain now _).map
      rw [Store.write_of_access haccess]
      cases hv : s.verdict now w.address (w.decide now) with
      | error e => exact failsOnly_error (hverdict e hv)
      | ok p => exact failsOnly_ok _

/-- A write is in doubt if and only if its answer is kept back, and without that it would have
succeeded. -/
theorem leavesDoubt_iff :
    LeavesDoubt (w.run now s).1 ↔ s.Reachable ∧ s.fault = some (.timeout true) ∧
      ∃ a, (w.run now { s with fault := none }).1 = .ok a := by
  constructor
  · intro h
    have haccess : s.access = .ok true := Classical.byContradiction fun hcertain =>
      (w.run_certain now hcertain).not_leavesDoubt h
    obtain ⟨hup, hfault⟩ := Store.access_eq_ok_true_iff.mp haccess
    refine ⟨hup, hfault, ?_⟩
    obtain ⟨-, hanswer⟩ := w.run_in_doubt now hup hfault
    cases hcalm : (w.run now { s with fault := none }).1 with
    | ok a => exact ⟨a, rfl⟩
    | error e =>
      -- Without the fault the failure is certain, and it is the same failure.
      have hcertain : Certain (w.run now { s with fault := none }).1 := by
        refine w.run_certain now fun h => ?_
        cases (Store.access_eq_ok_true_iff.mp h).2
      rw [hcalm] at hanswer hcertain
      rw [hanswer] at h
      exact absurd h hcertain.not_leavesDoubt
  · rintro ⟨hup, hfault, a, ha⟩
    obtain ⟨-, hdoubt, -⟩ := w.run_atomic now s
    exact ⟨_, (hdoubt hup hfault).2.1 a ha, rfl⟩

/-- Operations that only report leave the store as it is. -/
theorem run_reads (h : s.WellFormed) {address : Address} {ops : List Operation}
    (hops : ∀ op ∈ ops, op.isRead) (now : Instant) (options : WriteOptions) :
    ((operate address ops options).run now s).2 = s := by
  rcases (operate address ops options).run_cases now s with
    ⟨e, hrun⟩ | ⟨doubt, rs, a, c, -, hrs, hdecide, hrun⟩
  · rw [hrun]
  · obtain ⟨⟨record, c'⟩, hoperate, hanswer⟩ := map_eq_ok_iff.mp hdecide
    obtain ⟨-, rfl⟩ := Prod.mk.inj hanswer
    obtain ⟨-, done, hdone, hcases⟩ := Cell.operate_cases hoperate
    have hmodified : done.modified = false := by
      rw [Operation.applyFrom_modified hdone, Bool.false_or]
      exact List.any_eq_false.mpr fun op hop => by simp [hops op hop]
    obtain rfl : c' = .keep := by
      rcases hcases with ⟨-, hkeep⟩ | ⟨htrue, -⟩ | ⟨htrue, -⟩
      · exact hkeep
      · rw [hmodified] at htrue
        cases htrue
      · rw [hmodified] at htrue
        cases htrue
    rw [hrun]
    exact h.setSpace_self hrs

end WriteCall

/-! ## All calls -/

/-- An answer is a failure that leaves a write in doubt. -/
def StoreAnswer.InDoubt : StoreAnswer → Prop
  | record answer => LeavesDoubt answer
  | found answer => LeavesDoubt answer
  | written answer => LeavesDoubt answer
  | page answer => LeavesDoubt answer
  | info answer => LeavesDoubt answer
  | names answer => LeavesDoubt answer
  | accepted answer => LeavesDoubt answer
  | state answer => LeavesDoubt answer
  | count _ | silent => False

namespace StoreCall

variable {now : Instant} {s : Store}

/-- A call that is no write of a client is never in doubt. -/
theorem certain_of_not_write {call : StoreCall} (h : ∀ w, call ≠ .write w) :
    ¬(call.serve now s).1.InDoubt := by
  cases call with
  | write w => exact absurd rfl (h w)
  | get address options => exact (s.get_certain now address options).not_leavesDoubt
  | exists_ address filter => exact (s.exists_certain now address filter).not_leavesDoubt
  | scan request => exact (s.scan_certain now request).not_leavesDoubt
  | info target commands => exact (s.info_certain now target commands).not_leavesDoubt
  | nodeNames => exact s.nodeNames_certain.not_leavesDoubt
  | startJob request => exact (s.startJob_certain now request).not_leavesDoubt
  | jobStatus id => exact (s.jobStatus_certain id).not_leavesDoubt
  | count | dispatch | stepJob | pause | node | fault => exact fun h => h

/-- A call is in doubt if and only if it is a write of a client that would succeed if its answer
were not kept back. -/
theorem inDoubt_iff (call : StoreCall) (now : Instant) (s : Store) :
    (call.serve now s).1.InDoubt ↔
      ∃ w, call = .write w ∧ s.Reachable ∧ s.fault = some (.timeout true) ∧
        ∃ a, (w.run now { s with fault := none }).1 = .ok a := by
  by_cases hwrite : ∃ w, call = .write w
  · obtain ⟨w, rfl⟩ := hwrite
    refine ⟨fun h => ⟨w, rfl, WriteCall.leavesDoubt_iff.mp h⟩, ?_⟩
    rintro ⟨w', hw, h⟩
    obtain rfl := StoreCall.write.inj hw
    exact WriteCall.leavesDoubt_iff.mpr h
  · refine iff_of_false (certain_of_not_write fun w h => hwrite ⟨w, h⟩) ?_
    rintro ⟨w, rfl, -⟩
    exact hwrite ⟨w, rfl⟩

end StoreCall
end RecordService
