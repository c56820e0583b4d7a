import RecordService.Proofs.Job.Endings
import RecordService.Proofs.Job.Tally

/-!
# Records that come into being while a job is working

The worker of a job looks once for the live records of the job's set, and from then on goes by their
digests. So a record that comes into being afterwards is not part of the job, unless it does so in
the place of one that was there when the worker looked, and before its turn has come. That one has
been deleted or has expired in the meantime, and the worker takes the new one for it.

* `Effect.Creates`: a record comes into being.
* `Job.Finds`: the places of the records that a look for those of a job finds.
  `Store.mem_candidates_iff`: their digests are what the worker goes by.
* `Job.Awaits`: the places that a worker has still to go to. `Moment.awaits_of_changed`: a job
  changes records there only.
* `Moment.newcomers_unchanged`: a job changes no newcomer in other places.
* `Moment.newcomer_changed`: it does change newcomers there.
-/

namespace RecordService

/-- A record comes into being: there is no live one, and one is stored. -/
def Effect.Creates (x : Effect) : Prop := x.found = none ∧ ∃ r, x.change = .store r

/-- A look for the records of a job finds one at a digest of a namespace. -/
def Job.Finds (job : Job) (m : Moment) (ns : String) (d : Digest) : Prop :=
  ns = job.request.selection.ns ∧
    ∃ r, m.store.live? m.now ns d = some r ∧ r.isIn job.request.selection.set

/-- The worker of a job has still to go to a digest of a namespace. -/
def Job.Awaits (job : Job) (s : Store) (ns : String) (d : Digest) : Prop :=
  ns = job.request.selection.ns ∧
    ∃ left count, s.pool.find? job.id = some ⟨job, some left, count⟩ ∧ d ∈ left

/-- The digests that a worker finds are those of the live records of the set. -/
theorem Store.mem_candidates_iff {s : Store} (hwf : s.WellFormed) (now : Instant)
    (request : JobRequest) (d : Digest) :
    d ∈ s.candidates now request ↔
      ∃ r, s.live? now request.selection.ns d = some r ∧ r.isIn request.selection.set := by
  rw [candidates, live?]
  cases hrs : s.space? request.selection.ns with
  | none => simp
  | some rs =>
    have hfind : ∀ r, Ordered.find? d rs = some r ↔ (d, r) ∈ rs := fun r =>
      Ordered.find?_eq_some_iff (hwf.space? hrs).sorted
    rw [Option.elim_some, Option.bind_some, JobRequest.candidates, List.mem_map]
    simp only [Records.live?, Option.filter_eq_some_iff, hfind, List.mem_filter, Bool.and_eq_true]
    constructor
    · rintro ⟨⟨_, r⟩, ⟨hmem, hlive, hset⟩, rfl⟩
      exact ⟨r, ⟨hmem, hlive⟩, hset⟩
    · rintro ⟨r, ⟨hmem, hlive⟩, hset⟩
      exact ⟨(d, r), ⟨hmem, hlive, hset⟩, rfl⟩

namespace Moment

variable {m : Moment} {job : Job} {id : Nat} {events : List StoreEvent}

/-- Nothing is reported of a job that waits or is being worked on. -/
theorem unreported_of_mem (hfirst : m.store.jobNumbers = [])
    (hin : id ∈ (m.run events).store.pool.numbers) : Unreported (m.run events).store id := by
  have hnumbered := Store.numbered_of_jobNumbers hfirst
  have hnone : m.store.jobs = [] := List.map_eq_nil_iff.mp (List.append_eq_nil_iff.mp hfirst).1
  have hsorted : Ordered.Sorted (m.run events).store.jobs :=
    jobs_sorted_run (hnone ▸ List.Pairwise.nil) events
  have haccepts : m.Accepts events id :=
    (mem_jobNumbers_run events (List.mem_append_right _ hin)).resolve_left
      fun hmem => by simp [hfirst] at hmem
  intro j hj n hn
  cases haccepts.fate hfirst with
  | underway _ hknown =>
    rw [(Ordered.find?_eq_some_iff hsorted).mpr hj] at hknown
    obtain rfl := Option.some.inj hknown
    cases hn
  | known hends => exact hends.not_mem hnumbered hin
  | forgotten hforgets =>
    obtain ⟨outcome, ended, hends⟩ := hforgets.ends
    exact hends.not_mem hnumbered hin

/-- A change that a job makes is in the namespace of the job. -/
theorem ns_of_changed (hwf : m.store.WellFormed) {y : Effect} (hy : y ∈ m.log events)
    (horigin : y.origin = .job job) : y.ns = job.request.selection.ns := by
  obtain ⟨_, -, -, hvalid⟩ := (run_replays hwf events).1.valid_of_mem hy
  rw [horigin] at hvalid
  exact hvalid.1

/-- From a moment on at which its worker has looked, a job changes records only where the worker
has still to go. -/
theorem awaits_of_changed (hwf : m.store.WellFormed) (hnumbered : m.store.Numbered)
    {left : List Digest} {count : Nat} {xs : List Effect}
    (hworked : Worked m.store job left count xs) (hlt : job.id < m.store.nextJob) :
    ∀ y ∈ m.log events, y.isOf job.id → job.Awaits m.store y.ns y.digest := by
  intro y hy hof
  have hmine := List.mem_filter.mpr ⟨hy, hof⟩
  obtain ⟨-, -, back, -, -, ⟨hfound, hopen⟩ | ⟨hgone, -⟩⟩ := hworked
  · have hstart : Worked m.store job back (count + xs.length) [] :=
      ⟨List.forall_mem_nil _, [], back, rfl, List.nil_sublist _, .inl ⟨hfound, hopen⟩⟩
    have hrun := hstart.run hnumbered hlt events
    rw [List.nil_append] at hrun
    exact ⟨ns_of_changed hwf hy (hrun.own y hmine), back, _, hfound,
      hrun.sublist.subset (List.mem_map_of_mem (f := (·.digest)) hmine)⟩
  · rw [log_gone hlt hgone] at hmine
    cases hmine

/-- Where a worker has still to go its look has found a record. -/
theorem finds_of_awaits (hwf : m.store.WellFormed) {s : Store} {count : Nat} {xs : List Effect}
    (hworked : Worked s job (m.store.candidates m.now job.request) count xs) {ns : String}
    {d : Digest} (h : job.Awaits s ns d) : job.Finds m ns d := by
  obtain ⟨rfl, left, count', hfound, hd⟩ := h
  obtain ⟨-, front, back, hsplit, -, ⟨hfound', -⟩ | ⟨hgone, -⟩⟩ := hworked
  · obtain ⟨-, hleft, -⟩ := ActiveJob.mk.inj (Option.some.inj (hfound.symm.trans hfound'))
    obtain rfl := Option.some.inj hleft
    refine ⟨rfl, (Store.mem_candidates_iff hwf m.now job.request d).mp ?_⟩
    rw [hsplit]
    exact List.mem_append_right _ hd
  · exact absurd (JobPool.mem_numbers_of_find? hfound) hgone

/-- A worker takes a job at some moment of a run and looks for its records. The places to which it
has still to go after some events are among those of the live records of the job's set that its look
has found. If a record comes into being then, there is no live one in its place, and if the worker
has not still to go there, the job does not change the new one, whatever happens. So all that a job
may change of what comes into being behind its back is in place of a record that was part of it, and
is gone before its turn has come. -/
theorem newcomers_unchanged {settings : StoreSettings} {start : Instant}
    (hm : Reaches ⟨.empty settings, start⟩ m)
    (htaken : m.store.pool.find? job.id = some { job }) (front : List StoreEvent) :
    let m' := m.run (.stepJob job.id :: front)
    (∀ ns d, job.Awaits m'.store ns d → job.Finds m ns d) ∧
      ∀ e back, ∀ x ∈ m'.effects e, x.Creates →
        m'.store.live? m'.now x.ns x.digest = none ∧
          (¬job.Awaits m'.store x.ns x.digest →
            ∀ y ∈ (m'.after e).log back, y.isAt x.ns x.digest → y.isOf job.id = false) := by
  intro m'
  have hwf : m.store.WellFormed := hm.wellFormed_of_empty
  have hwf' : m'.store.WellFormed := run_wellFormed hwf _
  have hin : job.id ∈ m.store.pool.numbers := JobPool.mem_numbers_of_find? htaken
  obtain ⟨past, rfl⟩ := hm
  have hnumbered : (run ⟨.empty settings, start⟩ past).store.Numbered :=
    run_numbered (Store.empty_numbered settings) past
  have hworked := worked_from_taking htaken hnumbered (unreported_of_mem rfl hin) front
  have hlt : job.id < m'.store.nextJob :=
    Nat.lt_of_lt_of_le (hnumbered.lt job.id (List.mem_append_right _ hin)) (nextJob_run _ _)
  refine ⟨fun ns d => finds_of_awaits hwf hworked, fun e back x hx hcreates => ?_⟩
  refine ⟨live?_of_found_none hwf' hx hcreates.1, fun hnot y hy hat => ?_⟩
  obtain ⟨hns, hd⟩ : y.ns = x.ns ∧ y.digest = x.digest := by simpa [Effect.isAt] using hat
  cases hof : y.isOf job.id with
  | false => rfl
  | true =>
    have hlog : y ∈ m'.log (e :: back) := List.mem_append_right _ hy
    have hawaits := awaits_of_changed hwf' (run_numbered hnumbered _) hworked hlt y hlog hof
    exact absurd (hns ▸ hd ▸ hawaits) hnot

/-! ### Newcomers between the batches of a job -/

/-- The place of a second record. -/
def secondAddress : Address := ⟨"test", none, .digest WriteCall.otherDigest⟩

/-- A worker has taken a job that adds ten to all records, and is about to look for them. -/
def beforeLook (addresses : List Address) : Moment :=
  run ⟨.empty { jobBatchSize := 1 }, 0⟩
    (addresses.map (fun address => .put address [("n", .int 1)] {}) ++
      [.startJob addTen, .dispatch])

/-- A record that is written between the look and the only batch is not changed. -/
theorem newcomers_unchanged_besideFirst :
    let looked := (beforeLook [tallyAddress]).run [.stepJob 1]
    let written := looked.after (.put secondAddress [("n", .int 5)] {})
    (∀ y ∈ written.log [.stepJob 1, .stepJob 1],
        y.isAt "test" WriteCall.otherDigest → y.isOf 1 = false) ∧
      ((written.log [.stepJob 1, .stepJob 1]).filter (·.isOf 1)).map (·.digest) =
        [WriteCall.oneDigest] := by
  have hnot : ¬Job.Awaits ⟨1, addTen⟩ ((beforeLook [tallyAddress]).run [.stepJob 1]).store "test"
      WriteCall.otherDigest := by
    rintro ⟨-, left, count, hfound, hd⟩
    cases hfound
    revert hd
    decide
  obtain ⟨-, hnewcomers⟩ := @newcomers_unchanged (beforeLook [tallyAddress]) ⟨1, addTen⟩ _ _
    ⟨_, rfl⟩ rfl []
  obtain ⟨-, hunchanged⟩ := hnewcomers (.put secondAddress [("n", .int 5)] {})
    [.stepJob 1, .stepJob 1] _ (List.mem_singleton.mpr rfl) ⟨rfl, _, rfl⟩
  exact ⟨hunchanged hnot, rfl⟩

/-- A record that is deleted between two batches of a job and written anew is changed by the second
one. -/
theorem newcomer_changed :
    ¬∀ m, Reaches ⟨.empty { jobBatchSize := 1 }, 0⟩ m →
      ∀ job : Job, m.store.pool.find? job.id = some { job } → ∀ front e back,
        let m' := m.run (.stepJob job.id :: front)
        ∀ x ∈ m'.effects e, x.Creates →
          ∀ y ∈ (m'.after e).log back, y.isAt x.ns x.digest → y.isOf job.id = false := by
  intro h
  have huntouched := h (beforeLook [tallyAddress, secondAddress]) ⟨_, rfl⟩ ⟨1, addTen⟩ rfl
    [.stepJob 1, .delete secondAddress {}] (.put secondAddress [("n", .int 5)] {}) [.stepJob 1]
    _ (List.mem_singleton.mpr rfl) ⟨rfl, _, rfl⟩ _ (List.mem_singleton.mpr rfl) rfl
  cases huntouched

-- A record that is written anew before the look is no newcomer: it is among those that the look
-- finds, even if the job was accepted before.
example : ((beforeLook [tallyAddress]).run
    [.delete tallyAddress {}, .put tallyAddress [("n", .int 5)] {}, .stepJob 1, .stepJob 1,
      .stepJob 1]).store.bin? "test" WriteCall.oneDigest "n" = some (.int 15) := rfl

end Moment
end RecordService
