import RecordService.Proofs.Scan.Page
import RecordService.Proofs.Store.Write
import RecordService.Settings.Basic

/-!
# What checked settings are good for

Settings that pass the check make a gateway that takes its first calls: there is room for a record
on a page and for a task in the registry. The check does not ask that there is room for a job to
wait, and without that no job is accepted.

Nor does it bound the size of a page from above, as long as the limit is as large. Here a page
takes no more room than its records do (`Store.scan`), so that any size will do.

* `Store.scan_empty`, `Store.startJob_empty`, `TaskRegistry.submit_empty`: the calls on a store
  without records and a registry without tasks.
* `ServiceSettings.check_eq_ok_iff`, `check_maxQueuedJobs`: what the check asks for, and what not.
* `ServiceSettings.first_scan`, `first_submit`: the first calls of a gateway.
* `ServiceSettings.check_sufficient`: both at once.
* `ServiceSettings.unqueued_refused`: settings that pass, and under which every job is refused.
-/

namespace RecordService

/-! ## A store without records -/

namespace Store

variable {settings : StoreSettings} {ns : String} {now : Instant} {request : JobRequest}

theorem space?_empty (h : ns ∈ settings.namespaces) : (empty settings).space? ns = some [] := by
  let entries : List (String × Records) := settings.namespaces.map fun ns => (ns, [])
  have hall : ∀ e ∈ entries, some ([] : Records) = some e.2 :=
    List.forall_mem_map.mpr fun _ _ => rfl
  have hmem : ns ∈ entries.map (·.1) := by simpa [entries] using h
  have hfind := Ordered.find?_foldl_insert (m := []) (f := fun _ => some []) hall ns
  rw [if_pos hmem] at hfind
  exact hfind

theorem reachable_empty (settings : StoreSettings) : (empty settings).Reachable := by
  cases hnodes : settings.nodes with
  | nil => exact .inl hnodes
  | cons node rest => exact .inr ⟨node, hnodes ▸ List.mem_cons_self, rfl⟩

theorem accessRead_empty (settings : StoreSettings) : (empty settings).accessRead = .ok () := by
  rw [accessRead, access_of_reachable (reachable_empty settings)]
  rfl

/-- A scan of a store without records finds none. -/
theorem scan_empty {request : ScanRequest} (hns : request.selection.ns ∈ settings.namespaces)
    (hsize : request.size ≠ 0) : (empty settings).scan now request =
      (ResumeToken.digestOf request.resume).map fun _ => ⟨[], none⟩ := by
  unfold scan
  rw [accessRead_empty, space_eq_ok_iff.mpr (space?_empty hns)]
  show (if request.size = 0 then _ else _) = _
  rw [if_neg hsize]
  show (ResumeToken.digestOf request.resume).bind _ = _
  rcases ResumeToken.digestOf request.resume with why | start
  · rfl
  · have hnone : (Records.behind start []).selected now request.selection = [] := by
      cases start <;> rfl
    show Except.ok (Records.page request.size _
      ((Records.behind start []).selected now request.selection)) = _
    rw [hnone, Records.page_of_length_le (Nat.zero_le _)]
    rfl

theorem checkJob_eq_ok {s : Store} (haccess : s.accessRead = .ok ()) {rs : Records}
    (hrs : s.space? request.selection.ns = some rs) (hne : request.ops ≠ [])
    (hwrites : ∀ op ∈ request.ops, op.isRead = false) : s.checkJob request = .ok () := by
  refine bind_eq_ok_iff.mpr ⟨(), haccess, bind_eq_ok_iff.mpr ⟨rs, space_eq_ok_iff.mpr hrs, ?_⟩⟩
  have hempty : ¬request.ops.isEmpty := by rwa [List.isEmpty_iff]
  have hany : ¬request.ops.any (·.isRead) := by simpa using hwrites
  rw [if_neg hempty, if_neg hany]

/-- The first job is accepted, unless no job may wait. -/
theorem startJob_empty (hns : request.selection.ns ∈ settings.namespaces) (hne : request.ops ≠ [])
    (hwrites : ∀ op ∈ request.ops, op.isRead = false) :
    ((empty settings).startJob now request).1 =
      if 0 < settings.maxQueuedJobs then .ok 1
      else .error (.unavailable "background job queue is full") := by
  unfold startJob
  rw [checkJob_eq_ok (accessRead_empty settings) (space?_empty hns) hne hwrites]
  show (if 0 < settings.maxQueuedJobs then _ else _ : Except StoreError Nat × Store).1 = _
  split <;> rfl

end Store

/-! ## The registry -/

namespace TaskRegistry

theorem checkOperations_eq_ok {ops : List Operation} (hne : ops ≠ [])
    (hwrites : ∀ op ∈ ops, op.isRead = false) : checkOperations ops = .ok () := by
  have hshown : ops.findSome? shownReport? = none := by
    refine List.findSome?_eq_none_iff.mpr fun op hop => ?_
    have hwrite := hwrites op hop
    cases op with
    | read bin => cases hwrite
    | get => cases hwrite
    | _ => rfl
  have hempty : ¬ops.isEmpty := by rwa [List.isEmpty_iff]
  rw [checkOperations, if_neg hempty, hshown]

/-- A registry without tasks hands its first submission to the store. -/
theorem submit_empty {limits : TaskLimits} (hlimits : 0 < limits.maxTracked) {now : Instant}
    {fresh : TaskId} {selection : Selection} {ops : List Operation} {s : Store}
    (hops : checkOperations ops = .ok ()) :
    (submit now fresh selection ops { limits } s).1 =
      ((s.startJob now ⟨selection, ops⟩).1.mapError .rejected).map
        (accepted now fresh · selection) := by
  have hreserve : reserve { limits } = .ok { limits, reserved := 1 } := if_pos hlimits
  have hsweep : (sweep now { limits }).2 = { limits } := rfl
  simp only [submit, hops, hsweep, hreserve, hand]
  rcases s.startJob now ⟨selection, ops⟩ with ⟨e | job, s'⟩ <;> rfl

end TaskRegistry

/-! ## Settings -/

namespace ServiceSettings

variable {s : ServiceSettings} {ns : String}

/-- There is no fault if the first condition does not hold and there is none in the rest. -/
theorem some_or_eq_none_iff {p : Prop} [Decidable p] {why : SettingsFault}
    {x : Option SettingsFault} : (if p then some why else x) = none ↔ ¬p ∧ x = none := by
  by_cases hp : p <;> simp [hp]

/-- What the check asks for. -/
theorem check_eq_ok_iff : s.check = .ok () ↔
    0 < s.scan.defaultSize ∧ s.scan.defaultSize ≤ s.scan.maxSize ∧ 0 < s.tasks.maxTracked ∧
      0 < s.store.jobWorkers ∧ 0 < s.store.jobBatchSize ∧ s.store.nodes ≠ [] ∧
      (LogLevel.ofText? s.server.logLevel).isSome := by
  have hfault : s.check = .ok () ↔ s.fault? = none := by
    unfold check
    cases s.fault? <;> simp
  simp only [hfault, fault?, some_or_eq_none_iff, Nat.not_lt, Nat.pos_iff_ne_zero, and_true,
    List.isEmpty_iff, Bool.not_eq_true, Option.isNone_eq_false_iff, ne_eq]

/-- The check does not look at how many jobs may wait. -/
theorem check_maxQueuedJobs (s : ServiceSettings) (n : Nat) :
    ({ s with store := { s.store with maxQueuedJobs := n } } : ServiceSettings).check = s.check :=
  rfl

theorem check_default : ({} : ServiceSettings).check = .ok () :=
  check_eq_ok_iff.mpr (by decide +kernel)

/-- The first scan without a size is answered with an empty page, unless its token is none. -/
theorem first_scan (h : s.check = .ok ()) (hns : ns ∈ s.store.namespaces) (now : Instant)
    (set : Option String) (filter : Option Expression) (bins : Option (List String))
    (token : Option String) :
    s.scan.scan (.empty s.store) now ⟨ns, set, filter⟩ bins none token =
      ((ResumeToken.digestOf (token.filter (· ≠ ""))).mapError ScanError.ofStore).map
        fun _ => ⟨[], none⟩ := by
  obtain ⟨hpos, hle, -⟩ := check_eq_ok_iff.mp h
  have hsize : s.scan.pageSize none = .ok s.scan.defaultSize :=
    ScanLimits.pageSize_eq_ok_iff.mpr ⟨rfl, hpos, hle⟩
  rw [ScanLimits.scan, hsize]
  show (Store.scan _ _ _).mapError _ = _
  rw [Store.scan_empty hns (Nat.pos_iff_ne_zero.mp hpos)]
  cases ResumeToken.digestOf (token.filter (· ≠ "")) <;> rfl

/-- The first job is accepted as a task, unless no job may wait. -/
theorem first_submit (h : s.check = .ok ()) (hns : ns ∈ s.store.namespaces) (now : Instant)
    (fresh : TaskId) (set : Option String) (filter : Option Expression) {ops : List Operation}
    (hne : ops ≠ []) (hwrites : ∀ op ∈ ops, op.isRead = false) :
    (s.gateway.submit now fresh ⟨ns, set, filter⟩ ops).1 =
      if 0 < s.store.maxQueuedJobs then .ok ⟨fresh, 1, ns, set, now, .running⟩
      else .error (.storeUnavailable "background job queue is full") := by
  obtain ⟨-, -, htasks, -⟩ := check_eq_ok_iff.mp h
  let request : JobRequest := ⟨⟨ns, set, filter⟩, ops⟩
  have hstart : ((Store.empty s.store).startJob now request).1 = _ :=
    Store.startJob_empty hns hne hwrites
  show (TaskRegistry.submit now fresh request.selection ops { limits := s.tasks }
    (.empty s.store)).1.mapError _ = _
  rw [TaskRegistry.submit_empty htasks (TaskRegistry.checkOperations_eq_ok hne hwrites), hstart]
  split <;> rfl

/-- Under settings that pass the check, the first scan of a namespace without a size gives an empty
page, and with a token it is at least not refused for its size. The first job that is submitted
there is accepted as a task if a job may wait; if none may, it is refused.

The size of the page may be any that the check lets through, for the room for a page is taken as
unbounded. Where room for all of it is reserved in advance, the scan is answered so only as long as
there is that much. -/
theorem check_sufficient {s : ServiceSettings} (h : s.check = .ok ()) {ns : String}
    (hns : ns ∈ s.store.namespaces) (now : Instant) (set : Option String)
    (filter : Option Expression) :
    (∀ bins, s.gateway.scan now ⟨ns, set, filter⟩ bins none none = .ok ⟨[], none⟩) ∧
      (∀ bins token requested max,
        s.scan.scan s.gateway.store now ⟨ns, set, filter⟩ bins none token ≠
          .error (.invalidPageSize requested max)) ∧
      ∀ fresh ops, ops ≠ [] → (∀ op ∈ ops, op.isRead = false) →
        (0 < s.store.maxQueuedJobs →
          (s.gateway.submit now fresh ⟨ns, set, filter⟩ ops).1 =
            .ok ⟨fresh, 1, ns, set, now, .running⟩) ∧
        (s.store.maxQueuedJobs = 0 →
          (s.gateway.submit now fresh ⟨ns, set, filter⟩ ops).1 =
            .error (.storeUnavailable "background job queue is full")) := by
  refine ⟨fun bins => ?_, fun bins token requested max => ?_, fun fresh ops hne hwrites => ?_⟩
  · show (s.scan.scan (.empty s.store) now _ bins none none).mapError _ = _
    rw [first_scan h hns]
    rfl
  · show s.scan.scan (.empty s.store) now _ bins none token ≠ _
    rw [first_scan h hns]
    rcases ResumeToken.digestOf (token.filter (· ≠ "")) with why | start
    · cases why <;> nofun
    · nofun
  · rw [first_submit h hns now fresh set filter hne hwrites]
    exact ⟨fun hpos => if_pos hpos, fun hzero => if_neg (by omega)⟩

theorem check_sufficient_default :
    (({} : ServiceSettings).gateway.scan 0 ⟨"test", none, none⟩ none none none =
        .ok ⟨[], none⟩) ∧
      (({} : ServiceSettings).gateway.submit 0 ⟨1⟩ ⟨"test", none, none⟩
        [.put "flag" (.bool true)]).1 = .ok ⟨⟨1⟩, 1, "test", none, 0, .running⟩ := by
  obtain ⟨hscan, -, hsubmit⟩ :=
    check_sufficient check_default (List.mem_singleton_self "test") 0 none none
  exact ⟨hscan none, (hsubmit ⟨1⟩ _ (by decide) (by decide)).1 (by decide)⟩

/-- Settings that let no job wait. -/
def unqueued : ServiceSettings := { store := { maxQueuedJobs := 0 } }

/-- They pass the check, and refuse the first job while every worker is idle. -/
theorem unqueued_refused :
    unqueued.check = .ok () ∧ "test" ∈ unqueued.store.namespaces ∧
      (unqueued.gateway.submit 0 ⟨1⟩ ⟨"test", none, none⟩ [.put "flag" (.bool true)]).1 =
        .error (.storeUnavailable "background job queue is full") :=
  ⟨(check_maxQueuedJobs {} 0).trans check_default, List.mem_singleton_self "test", rfl⟩

end ServiceSettings

end RecordService
