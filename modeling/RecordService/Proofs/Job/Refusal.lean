import RecordService.Proofs.Job.Newcomers

/-!
# Records that refuse operations

Operations may not fit the bins of a record. An operate is then answered so, and changes nothing. A
worker that comes to such a record ends its job there, unless another record has ended it before. So
if a record that is part of a job stays as unfit as it is, whatever else happens in the meantime,
the job fails and never changes it.

* `Store.operate_of_refused`: the answer to an operate.
* `JobRequest.visitAll_refused`: a batch stops at a record that refuses the operations, or before.
* `Moment.AtSteps`: what is so whenever the worker of a job takes a step.
* `Job.RefusedAt`: a record refuses the operations of a job.
* `Moment.step_refused`, `Moment.run_refused`: a step of a worker that has still to go to such a
  record, and all its steps.
* `Job.Fails`, `Moment.Waits.fails`: what comes of a job with such a record.
-/

namespace RecordService

/-! ## One record -/

theorem Cell.applyJob_of_refused {ops : List Operation} {r : StoredRecord} {why : OperationFault}
    (h : Operation.applyAll ops r.bins = .error why) :
    applyJob ops r = .error (operationError why) := by
  rw [applyJob, h]

/-- Nothing but operations that do not fit are refused. -/
theorem Cell.applyJob_error {ops : List Operation} {r : StoredRecord} {e : StoreError}
    (h : applyJob ops r = .error e) : ∃ reason, e = .parameter reason := by
  rw [applyJob] at h
  split at h
  · cases h
    exact ⟨_, rfl⟩
  · cases h

theorem Cell.operate_of_refused {now : Instant} {address : Address} {d : Digest}
    {ops : List Operation} {options : WriteOptions} {live : Option StoredRecord}
    {why : OperationFault} (hcheck : checkOperate live ops options = .ok ())
    (h : Operation.applyAll ops (live.getD (fresh address)).bins = .error why) :
    operate now address d ops options live = .error (operationError why) := by
  rw [operate, hcheck]
  simp only [Except.bind, h]

/-- An operate that a live record refuses is answered so, and leaves the store as it is. -/
theorem Store.operate_of_refused {s : Store} {now : Instant} {address : Address}
    {ops : List Operation} {options : WriteOptions} {doubt : Bool} {r : StoredRecord}
    {why : OperationFault} (haccess : s.access = .ok doubt)
    (hlive : s.live? now address.ns address.digest = some r)
    (hcheck : Cell.checkOperate (some r) ops options = .ok ())
    (h : Operation.applyAll ops r.bins = .error why) :
    s.operate now address ops options = (.error (Cell.operationError why), s) := by
  obtain ⟨rs, hrs, hlive⟩ := Option.bind_eq_some_iff.mp hlive
  have hops : ¬ops.isEmpty = true := by
    cases ops with
    | nil => cases h
    | cons op rest => exact Bool.false_ne_true
  rw [Store.operate, if_neg hops, Store.write_of_access haccess, Store.verdict,
    Store.space_eq_ok_iff.mpr hrs]
  simp only [Except.bind, hlive, Cell.operate_of_refused hcheck h, Except.map]

/-! ## One batch -/

namespace JobRequest

variable {request : JobRequest} {now : Instant} {rs : Records} {d : Digest} {r : StoredRecord}
  {e : StoreError}

theorem visitAll_error {ds : List Digest} {changed : Nat}
    (h : (request.visitAll now ds rs changed).2 = .error e) : ∃ reason, e = .parameter reason := by
  induction ds generalizing rs changed with
  | nil => cases h
  | cons d rest ih =>
    cases hr : request.target? now rs d with
    | none =>
      rw [visitAll_of_missed hr] at h
      exact ih h
    | some r =>
      cases hc : Cell.applyJob request.ops r with
      | error e' =>
        rw [visitAll_of_refused hr hc] at h
        cases h
        exact Cell.applyJob_error hc
      | ok c =>
        rw [visitAll_of_changed hr hc] at h
        exact ih h

/-- A batch leaves a record that refuses the operations as it is, and fails if it comes to it. -/
theorem visitAll_refused (hr : request.target? now rs d = some r)
    (he : Cell.applyJob request.ops r = .error e) (ds : List Digest) (changed : Nat) :
    Ordered.find? d (request.visitAll now ds rs changed).1 = Ordered.find? d rs ∧
      (d ∈ ds → ∃ e, (request.visitAll now ds rs changed).2 = .error e) := by
  induction ds generalizing rs changed with
  | nil => exact ⟨rfl, nofun⟩
  | cons d' rest ih =>
    cases hr' : request.target? now rs d' with
    | none =>
      have hne : d ≠ d' := by
        rintro rfl
        rw [hr] at hr'
        cases hr'
      obtain ⟨hkept, hfails⟩ := ih hr changed
      rw [visitAll_of_missed hr']
      exact ⟨hkept, fun hd => hfails (List.mem_of_ne_of_mem hne hd)⟩
    | some r' =>
      cases hc : Cell.applyJob request.ops r' with
      | error e' =>
        rw [visitAll_of_refused hr' hc]
        exact ⟨rfl, fun _ => ⟨e', rfl⟩⟩
      | ok c =>
        have hne : d ≠ d' := by
          rintro rfl
          cases hr.symm.trans hr'
          rw [he] at hc
          cases hc
        obtain ⟨hkept, hfails⟩ := ih ((target?_change_of_ne hne c).trans hr) (changed + 1)
        rw [visitAll_of_changed hr' hc]
        exact ⟨hkept.trans (Records.find?_change_of_ne hne rs c),
          fun hd => hfails (List.mem_of_ne_of_mem hne hd)⟩

end JobRequest

/-! ## The steps of a worker -/

/-- An event is a step of the worker of a job. -/
def StoreEvent.isStepOf (id : Nat) : StoreEvent → Bool
  | .stepJob id' => id' == id
  | _ => false

/-- A job finds a live record of its set at a digest, one that passes its filter, and its operations
do not fit the bins. -/
def Job.RefusedAt (job : Job) (d : Digest) (m : Moment) : Prop :=
  ∃ r why, m.store.live? m.now job.request.selection.ns d = some r ∧
    r.isIn job.request.selection.set ∧ r.passes job.request.selection.filter ∧
    Operation.applyAll job.request.ops r.bins = .error why

/-- A step of the worker of a job leaves what is stored at a digest as it is. -/
def Job.Spares (job : Job) (d : Digest) (m : Moment) : Prop :=
  (m.after (.stepJob job.id)).store.record? job.request.selection.ns d =
    m.store.record? job.request.selection.ns d

namespace Moment

variable {m : Moment} {e : StoreEvent} {front back events : List StoreEvent} {id : Nat} {job : Job}
  {d : Digest} {left : List Digest} {count : Nat} {outcome : JobState} {ended : Instant}
  {P : Moment → Prop}

/-- Something is so whenever the worker of a job takes a step in the course of the events. -/
def AtSteps (m : Moment) (id : Nat) (events : List StoreEvent) (P : Moment → Prop) : Prop :=
  ∀ front back, events = front ++ .stepJob id :: back → P (m.run front)

theorem atSteps_nil : m.AtSteps id [] P := by
  intro front back h
  cases front <;> cases h

theorem atSteps_cons :
    m.AtSteps id (e :: events) P ↔ (e = .stepJob id → P m) ∧ (m.after e).AtSteps id events P := by
  constructor
  · intro h
    refine ⟨fun he => h [] events (congrArg (· :: events) he), fun front back hsplit => ?_⟩
    exact h (e :: front) back (congrArg (e :: ·) hsplit)
  · rintro ⟨hfirst, hrest⟩ front back hsplit
    cases front with
    | nil => exact hfirst (List.cons.inj hsplit).1
    | cons e' front =>
      obtain ⟨rfl, hbehind⟩ := List.cons.inj hsplit
      exact hrest front back hbehind

theorem AtSteps.behind (h : m.AtSteps id (front ++ back) P) : (m.run front).AtSteps id back P := by
  intro before later hsplit
  rw [← run_append]
  exact h (front ++ before) later (by rw [hsplit, List.append_assoc])

theorem Ends.behind (front : List StoreEvent) (h : (m.run front).Ends back id outcome ended) :
    m.Ends (front ++ back) id outcome ended := by
  obtain ⟨before, later, rfl, hin, hout, hnow, hfound⟩ := h
  rw [← run_append] at hin hnow
  rw [← run_append, ← List.append_assoc] at hout hfound
  exact ⟨front ++ before, later, (List.append_assoc _ _ _).symm, hin, hout, hnow, hfound⟩

/-- Where no worker has the job, a step of its worker is none. -/
theorem spares_of_find?_none (h : m.store.pool.find? job.id = none) : job.Spares d m := by
  rw [Job.Spares, after, Store.stepJob_of_find?_none h]

theorem atSteps_spares_of_gone (hlt : job.id < m.store.nextJob)
    (hgone : job.id ∉ m.store.pool.numbers) (events : List StoreEvent) :
    m.AtSteps job.id events (job.Spares d) := by
  intro front back _
  refine spares_of_find?_none (Option.eq_none_iff_forall_ne_some.mpr fun a ha => ?_)
  exact not_mem_numbers_run hlt hgone front (JobPool.mem_numbers_of_find? ha)

/-- A step of a worker that has still to go to a record that refuses the operations ends the job, or
leaves fewer digests with that of the record among them. -/
theorem step_refused (hnodup : m.store.pool.numbers.Nodup)
    (hfound : m.store.pool.find? job.id = some ⟨job, some left, count⟩) (hd : d ∈ left)
    (hrefused : job.RefusedAt d m) :
    job.Spares d m ∧
      ((∃ reason, m.Ends [.stepJob job.id] job.id
          (.failed (StoreError.parameter reason).message) m.now) ∨
        ∃ left' count', (m.after (.stepJob job.id)).store.pool.find? job.id =
            some ⟨job, some left', count'⟩ ∧ d ∈ left' ∧ left'.length < left.length) := by
  obtain ⟨r, why, hlive, -, hpasses, hwhy⟩ := hrefused
  obtain ⟨rs, hrs, hlive⟩ := Option.bind_eq_some_iff.mp hlive
  have hstep : (m.after (.stepJob job.id)).store =
      m.store.stepBatch m.now ⟨job, some left, count⟩ left rs :=
    Store.stepJob_of_left (a := ⟨job, some left, count⟩) hfound rfl (List.ne_nil_of_mem hd) hrs _
  obtain ⟨hkept, hfails⟩ := JobRequest.visitAll_refused
    (Option.filter_eq_some_iff.mpr ⟨hlive, hpasses⟩) (Cell.applyJob_of_refused hwhy)
    (left.take m.store.batchSize) 0
  refine ⟨?_, ?_⟩
  · rw [Job.Spares, hstep, Store.record?, Store.space?, Store.stepBatch_spaces, ← Store.space?,
      ← Store.record?, Store.record?_setSpace, if_pos rfl, hkept, Store.record?, hrs,
      Option.bind_some]
  rw [Store.stepBatch] at hstep
  cases hv : job.request.visitAll m.now (left.take m.store.batchSize) rs 0 with
  | mk rs' result =>
  simp only [hv] at hstep hfails
  cases result with
  | error e =>
    obtain ⟨reason, rfl⟩ := JobRequest.visitAll_error (congrArg Prod.snd hv)
    obtain ⟨hout, hknown⟩ := left_by_endJob
      (s := m.store.setSpace job.request.selection.ns rs') hnodup hfound rfl hstep
    exact .inl ⟨reason, [], [], rfl, JobPool.mem_numbers_of_find? hfound, hout, rfl, hknown⟩
  | ok changed =>
    have hdrop : d ∈ left.drop m.store.batchSize := by
      rw [← List.take_append_drop m.store.batchSize left] at hd
      refine (List.mem_append.mp hd).resolve_left fun htake => ?_
      obtain ⟨e, he⟩ := hfails htake
      cases he
    have hfewer : (left.drop m.store.batchSize).length < left.length := by
      have hpos : 1 ≤ m.store.batchSize := Nat.le_max_right _ _
      have hsome := List.length_pos_of_mem hd
      rw [List.length_drop]
      omega
    refine .inr ⟨left.drop m.store.batchSize, count + changed, ?_, hdrop, hfewer⟩
    rw [hstep]
    exact JobPool.find?_update ⟨job, some (left.drop m.store.batchSize), count + changed⟩ hfound

/-- So do all steps of the worker, whatever else happens: each that does not end the job leaves
fewer digests. -/
theorem run_refused (hwf : m.store.WellFormed) (hnumbered : m.store.Numbered)
    (hfound : m.store.pool.find? job.id = some ⟨job, some left, count⟩) (hd : d ∈ left)
    (hrefused : m.AtSteps job.id events (job.RefusedAt d)) :
    m.AtSteps job.id events (job.Spares d) ∧
      ((∃ reason ended, m.Ends events job.id
          (.failed (StoreError.parameter reason).message) ended) ∨
        ∃ left' count', (m.run events).store.pool.find? job.id = some ⟨job, some left', count'⟩ ∧
          d ∈ left' ∧ left'.length + events.countP (StoreEvent.isStepOf job.id) ≤ left.length) := by
  induction events generalizing m left count with
  | nil => exact ⟨atSteps_nil, .inr ⟨left, count, hfound, hd, Nat.le_refl _⟩⟩
  | cons e rest ih =>
    obtain ⟨hfirst, hrest⟩ := atSteps_cons.mp hrefused
    have hnumbered' := after_numbered hnumbered e
    have hwf' := after_wellFormed hwf e
    have hlt : job.id < (m.after e).store.nextJob :=
      Nat.lt_of_lt_of_le (hnumbered.lt job.id
        (List.mem_append_right _ (JobPool.mem_numbers_of_find? hfound))) (m.nextJob_after e)
    by_cases he : e = .stepJob job.id
    · subst he
      obtain ⟨hspared, ⟨reason, hends⟩ | ⟨left', count', hfound', hd', hfewer⟩⟩ :=
        step_refused hnumbered.nodup hfound hd (hfirst rfl)
      · have hgone : job.id ∉ (m.after (.stepJob job.id)).store.pool.numbers :=
          hends.not_mem hnumbered
        exact ⟨atSteps_cons.mpr ⟨fun _ => hspared, atSteps_spares_of_gone hlt hgone rest⟩,
          .inl ⟨reason, m.now, hends.append rest⟩⟩
      · obtain ⟨hspares, hcomes⟩ := ih hwf' hnumbered' hfound' hd' hrest
        refine ⟨atSteps_cons.mpr ⟨fun _ => hspared, hspares⟩, ?_⟩
        rcases hcomes with ⟨reason, ended, hends⟩ | ⟨left'', count'', hfound'', hd'', hle⟩
        · exact .inl ⟨reason, ended, hends.behind [.stepJob job.id]⟩
        · refine .inr ⟨left'', count'', hfound'', hd'', ?_⟩
          have hturn : (StoreEvent.stepJob job.id).isStepOf job.id = true := beq_self_eq_true job.id
          rw [List.countP_cons_of_pos hturn]
          omega
    · obtain ⟨hspares, hcomes⟩ := ih hwf' hnumbered' (find?_after he hfound) hd hrest
      refine ⟨atSteps_cons.mpr ⟨fun h => absurd h he, hspares⟩, ?_⟩
      rcases hcomes with ⟨reason, ended, hends⟩ | ⟨left', count', hfound', hd', hle⟩
      · exact .inl ⟨reason, ended, hends.behind [e]⟩
      · have hother : ¬e.isStepOf job.id = true := by
          cases e with
          | stepJob id => exact fun h => he (congrArg _ (beq_iff_eq.mp h))
          | _ => exact Bool.false_ne_true
        refine .inr ⟨left', count', hfound', hd', ?_⟩
        rwa [List.countP_cons_of_neg hother]

/-- The look of a worker finds a record that refuses the operations, and changes nothing. -/
theorem look_refused (hwf : m.store.WellFormed)
    (htaken : m.store.pool.find? job.id = some { job }) (hrefused : job.RefusedAt d m) :
    job.Spares d m ∧
      (m.after (.stepJob job.id)).store.pool.find? job.id =
        some ⟨job, some (m.store.candidates m.now job.request), 0⟩ ∧
      d ∈ m.store.candidates m.now job.request := by
  obtain ⟨r, why, hlive, hset, -⟩ := hrefused
  obtain ⟨rs, hrs, -⟩ := Option.bind_eq_some_iff.mp hlive
  have hcandidates :
      m.store.candidates m.now job.request = job.request.candidates m.now rs := by
    rw [Store.candidates, hrs, Option.elim_some]
  have hstep : (m.after (.stepJob job.id)).store = m.store.noteJob
      { job, left := some (m.store.candidates m.now job.request) } := by
    rw [hcandidates]
    exact Store.stepJob_of_taken (a := { job }) htaken rfl hrs m.now
  refine ⟨?_, ?_, (Store.mem_candidates_iff hwf m.now job.request d).mpr ⟨r, hlive, hset⟩⟩
  · rw [Job.Spares, hstep]
    rfl
  · rw [hstep]
    exact JobPool.find?_update
      ⟨job, some (m.store.candidates m.now job.request), 0⟩ htaken

/-- A job that waits goes on waiting until its worker takes the look. -/
theorem Waits.look (h : Waits m.store job) (hnodup : m.store.pool.numbers.Nodup) (d : Digest)
    (e : StoreEvent) :
    (Waits (m.after e).store job ∧ (e = .stepJob job.id → job.Spares d m)) ∨
      (e = .stepJob job.id ∧ m.store.pool.find? job.id = some { job }) := by
  by_cases he : e = .stepJob job.id
  · subst he
    rcases h.find?_cases hnodup with hnone | htaken
    · rw [Moment.after, Store.stepJob_of_find?_none hnone]
      exact .inl ⟨h, fun _ => spares_of_find?_none hnone⟩
    · exact .inr ⟨rfl, htaken⟩
  · exact .inl ⟨h.after he, fun h => absurd h he⟩

/-- All steps of the worker of a job that waits. -/
theorem Waits.refused (hwaits : Waits m.store job) (hwf : m.store.WellFormed)
    (hnumbered : m.store.Numbered) (hrefused : m.AtSteps job.id events (job.RefusedAt d)) :
    m.AtSteps job.id events (job.Spares d) ∧
      ((∃ reason ended, m.Ends events job.id
          (.failed (StoreError.parameter reason).message) ended) ∨
        job.id ∈ (m.run events).store.pool.numbers) := by
  induction events generalizing m with
  | nil => exact ⟨atSteps_nil, .inr hwaits.mem_numbers⟩
  | cons e rest ih =>
    obtain ⟨hfirst, hrest⟩ := atSteps_cons.mp hrefused
    have hwf' := after_wellFormed hwf e
    have hnumbered' := after_numbered hnumbered e
    rcases hwaits.look hnumbered.nodup d e with ⟨hwaits', hspared⟩ | ⟨rfl, htaken⟩
    · obtain ⟨hspares, hcomes⟩ := ih hwaits' hwf' hnumbered' hrest
      exact ⟨atSteps_cons.mpr ⟨hspared, hspares⟩, hcomes.imp_left fun ⟨reason, ended, hends⟩ =>
        ⟨reason, ended, hends.behind [e]⟩⟩
    · obtain ⟨hspared, hfound, hd⟩ := look_refused hwf htaken (hfirst rfl)
      obtain ⟨hspares, hcomes⟩ := run_refused hwf' hnumbered' hfound hd hrest
      refine ⟨atSteps_cons.mpr ⟨fun _ => hspared, hspares⟩, ?_⟩
      rcases hcomes with ⟨reason, ended, hends⟩ | ⟨left, count, hfound', -⟩
      · exact .inl ⟨reason, ended, hends.behind [.stepJob job.id]⟩
      · exact .inr (JobPool.mem_numbers_of_find? hfound')

end Moment

/-- What comes of a job of which a record refuses the operations: no step of its worker changes the
record; if it ends it has failed, by operations that do not fit; and it has ended once its worker,
after the look, has taken as many steps as the look has found digests. -/
structure Job.Fails (job : Job) (d : Digest) (m : Moment) (events : List StoreEvent) : Prop where
  spares : m.AtSteps job.id events (job.Spares d)
  failed : ∀ outcome ended, m.Ends events job.id outcome ended →
    ∃ reason, outcome = .failed (StoreError.parameter reason).message
  ends : ∀ front back, events = front ++ .stepJob job.id :: back →
    (m.run front).store.pool.find? job.id = some { job } →
    ((m.run front).store.candidates (m.run front).now job.request).length ≤
      back.countP (StoreEvent.isStepOf job.id) →
    ∃ outcome ended, m.Ends events job.id outcome ended

/-- A job fails if a record refuses its operations whenever its worker takes a step. -/
theorem Moment.Waits.fails {m : Moment} {job : Job} {d : Digest} {events : List StoreEvent}
    (hwaits : Waits m.store job) (hwf : m.store.WellFormed) (hnumbered : m.store.Numbered)
    (hrefused : m.AtSteps job.id events (job.RefusedAt d)) : job.Fails d m events := by
  obtain ⟨hspares, hcomes⟩ := hwaits.refused hwf hnumbered hrefused
  refine ⟨hspares, fun outcome ended hends => ?_, ?_⟩
  · rcases hcomes with ⟨reason, ended', hfailed⟩ | hin
    · exact ⟨reason, (hends.unique hfailed hnumbered).1⟩
    · exact absurd hin (hends.not_mem hnumbered)
  · rintro front back rfl htaken hsteps
    have hwf' := run_wellFormed hwf front
    have hnumbered' := run_numbered hnumbered front
    obtain ⟨hlook, hback⟩ := atSteps_cons.mp hrefused.behind
    obtain ⟨-, hfound, hd⟩ := look_refused hwf' htaken (hlook rfl)
    have hcomes := (run_refused (after_wellFormed hwf' _) (after_numbered hnumbered' _) hfound hd
      hback).2
    rcases hcomes with ⟨reason, ended, hends⟩ | ⟨left, count, -, hleft, hle⟩
    · exact ⟨_, ended, (hends.behind [.stepJob job.id]).behind front⟩
    · -- The digest is still to be gone to, but no step is left to go.
      have hpos := List.length_pos_of_mem hleft
      omega

end RecordService
